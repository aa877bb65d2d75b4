import Ecu.Forward.Invariant

/-!
# Which record a transmission marks

`send_record` is handed the text of a record and its time, and `change_resendflag` finds the
record again by the time. The record that was sent gets the flag `'2'` exactly when no record
before it, in directory and line order, has the same time (`send_marks_iff`).
-/

namespace Ecu.Forward

variable {q : Queue}

namespace Store

/-- The lines of a store that are not empty are those of its records. -/
theorem records_lines (s : Store q) :
    (s.map fun e => e.2.map Line.bytes).flatten.filter (· ≠ [newline]) = s.records.map Record.line := by
  have file (ls : List (Line q)) :
      (ls.map Line.bytes).filter (· ≠ [newline]) = (Line.records ls).map Record.line := by
    induction ls with
    | nil => rfl
    | cons l ls ih =>
      cases l with
      | blank => simpa [Line.bytes] using ih
      | record r =>
        have other : r.line ≠ [newline] := by
          intro same
          have long := r.long_line
          rw [same] at long
          exact absurd long (by decide)
        rw [List.map_cons, Line.bytes, List.filter_cons_of_pos (by simpa using other), ih]
        rfl
  induction s with
  | nil => rfl
  | cons e s ih => rw [List.map_cons, List.flatten_cons, List.filter_append, file, ih, records_cons, List.map_append]

/-- A directory determines the lines of its records. -/
theorem lines_of_render {s t : Store q} (same : s.render = t.render) :
    s.records.map Record.line = t.records.map Record.line := by
  rw [← records_lines, ← records_lines, ← lines_render, ← lines_render, same]

end Store

/-- Filling a place is setting one record. -/
theorem Place.records_set (p : Place q) (r x : Record q) :
    (p.fill x).records = (p.fill r).records.set p.preceding.length x := by
  simp [records_fill]

/-- Two records put at different places leave different directories, if the second one differs
from the record that was at its place. -/
theorem fill_render_ne {p p' : Place q} {r r' x x' : Record q} (same : p.fill r = p'.fill r')
    (apart : p.preceding.length ≠ p'.preceding.length) (other : r.line ≠ x.line) :
    (p'.fill x').render ≠ (p.fill x).render := by
  intro render
  have lines := congrArg (·[p.preceding.length]?) (Store.lines_of_render render)
  simp only [List.getElem?_map] at lines
  rw [p'.records_set r', ← same, List.getElem?_set_ne (Ne.symm apart), Place.records_fill,
    Place.records_fill, List.getElem?_append_right (Nat.le_refl _),
    List.getElem?_append_right (Nat.le_refl _)] at lines
  simp only [Nat.sub_self, List.getElem?_cons_zero, Option.map_some, Option.some.injEq] at lines
  exact other lines

theorem withFlag_line_ne {r : Record q} {c : Byte} {isFlag : IsFlag c} (changed : r.flag ≠ c) :
    r.line ≠ (r.withFlag c isFlag).line := by
  intro same
  have flags := congrArg (fun l => fromEnd l 2) same
  simp only [Record.fromEnd_flag, Record.withFlag_flag, Option.some.injEq] at flags
  exact changed flags

/-- A change by key marks the record at a place exactly when no record before it has the key. -/
theorem change_marks_iff {p : Place q} {r : Record q} {c : Byte} {isFlag : IsFlag c} (changed : r.flag ≠ c) :
    ((p.fill r).change (fun x => r.key == x.key) c isFlag).2.render = (p.fill (r.withFlag c isFlag)).render ↔
      ∀ x ∈ p.preceding, x.key ≠ r.key := by
  constructor
  · intro marked x mem same
    rcases Store.change_cases (T := fun x => r.key == x.key) isFlag (p.fill r) with
      ⟨-, none⟩ | ⟨p', r', place, -, passed, done⟩
    · exact absurd (none r (p.mem_fill r)) (by simp)
    · have apart : p.preceding.length ≠ p'.preceding.length := by
        intro sameLength
        have records := congrArg Store.records place
        rw [Place.records_fill, Place.records_fill] at records
        have preceding := (List.append_inj records sameLength).1
        exact absurd (passed x (preceding ▸ mem)) (by simp [same])
      rw [done] at marked
      exact fill_render_ne place apart (withFlag_line_ne changed) marked
  · intro unique
    rw [Store.change_fill (by simp) fun x mem => by simpa using fun same => unique x mem same.symm]

/-- `send_record` after an answer that confirms nothing. -/
theorem sendRecord_marks {d : Dir} {time : List Byte} {reply : Reply} (long : 3 ≤ reply.readbytes)
    (accepted : reply.readbuff.head? = some (digit 1)) (none : confirmedTimes reply.readbuff = []) :
    sendRecord d time (some reply) = (0, (changeResendflag d time (digit 2)).2) := by
  rw [sendRecord, if_neg (Nat.not_lt.2 long), if_pos accepted, clearSendFlag_eq, none, updateSendFlag_eq]
  rfl

/-- In every directory of a run: a transmission that was accepted and confirms no time puts `'2'` on
the record that `search_readflag` handed out, and changes nothing else, if and only if no record before
that one has its time. An answer of less than three bytes counts as a failure. -/
theorem send_marks_iff {es : List Event} {d : Dir} (run : Run .record es d) :
    (∃ s : Store .record, d = s.render) ∧
      ∀ (s : Store .record) (p : Place .record) (r : Record .record), d = s.render →
        s.FirstWith (digit 1) p r →
        ∀ (reply : Reply) (data time : List Byte), reply.readbuff.head? = some (digit 1) →
          confirmedTimes reply.readbuff = [] →
          (reply.readbytes < 3 →
            sendRecord d ((searchReadflag d data time (digit 1)).keys.getD 0 []) (some reply) = (-1, d)) ∧
          (3 ≤ reply.readbytes →
            (sendRecord d ((searchReadflag d data time (digit 1)).keys.getD 0 []) (some reply) =
              (0, (p.fill (r.withFlag (digit 2) isFlag_digit.2.2)).render) ↔
                ∀ x ∈ p.preceding, x.key ≠ r.key)) := by
  refine ⟨?_, ?_⟩
  · obtain ⟨s, same, -⟩ := run.keeps
    exact ⟨s, same⟩
  intro s p r same first reply data time accepted none
  refine ⟨?_, ?_⟩
  · intro short
    rw [sendRecord, if_pos short]
  intro long
  obtain ⟨key, keys, width⟩ := r.keys_one rfl
  obtain ⟨flag, out, -⟩ := searchFlag_fill first data [time]
  have searched : ((searchReadflag d data time (digit 1)).keys.getD 0 []).take 14 = r.key := by
    rw [same]
    change ((searchFlag Queue.record.searchParams s.render data [time] (digit 1)).keys.getD 0 []).take 14 = _
    rw [out]
    simp [Record.keysInto, keys, memcpy, Record.key, ← width]
  rw [sendRecord_marks long accepted none, same, changeResendflag_render s _ isFlag_digit.2.2, ← same,
    searched, first.split, Prod.mk.injEq, and_iff_right rfl]
  exact change_marks_iff (by rw [first.flag]; decide)

/-- A short round record of a given second. -/
def sampleRecord : Record .record where
  payload := str "APS18AAA12END"
  keys := [sampleTime]
  flag := digit 1
  payloadText := by decide
  widths := by decide
  keysText := by decide
  isFlag := isFlag_one
  long := by decide
  fits := by decide

/-- The place of a line that is alone in its file but for what was stored above it. -/
def samplePlace (above : List (Line .record)) : Place .record :=
  { before := [], name := dayFile sampleTime, above := above, below := [], after := [] }

/-- The first record of a run is marked. -/
theorem send_marks_sample :
    sendRecord (saveRecord [] 0 sampleRecord.payload sampleTime) sampleTime (some ⟨str "100", 3⟩) =
      (0, ((samplePlace [.blank]).fill (sampleRecord.withFlag (digit 2) isFlag_digit.2.2)).render) := by
  have first : ((samplePlace [.blank]).fill sampleRecord).FirstWith (digit 1) (samplePlace [.blank]) sampleRecord :=
    ⟨rfl, rfl, fun x mem => absurd mem List.not_mem_nil⟩
  have marks := (send_marks_iff (.step .start (.saveRecord [] 0 sampleRecord rfl))).2 _ _ _
    (by decide +kernel) first ⟨str "100", 3⟩ [] [] (by decide) (by decide)
  exact (marks.2 (Nat.le_refl 3)).2 fun x mem => absurd mem List.not_mem_nil

/-- Two rounds share a second and the first one is confirmed: the transmission of the second one
marks the first. -/
theorem send_marks_confirmed_record :
    ¬ ∀ (es : List Event) (s : Store .record) (p : Place .record) (r : Record .record), Run .record es s.render →
      s.FirstWith (digit 1) p r → ∀ (reply : Reply) (data time : List Byte),
        reply.readbuff.head? = some (digit 1) → confirmedTimes reply.readbuff = [] →
        (sendRecord s.render ((searchReadflag s.render data time (digit 1)).keys.getD 0 []) (some reply)).2 =
          (p.fill (r.withFlag (digit 2) isFlag_digit.2.2)).render := by
  intro claim
  let confirmed := sampleRecord.withFlag (digit 0) isFlag_digit.1
  let place := samplePlace [.blank, .record confirmed, .blank]
  have first : (place.fill sampleRecord).FirstWith (digit 1) place sampleRecord :=
    ⟨rfl, rfl, fun x mem => by rw [List.mem_singleton.1 mem]; decide⟩
  have saved := Run.step .start (.saveRecord [] 0 sampleRecord rfl)
  have sent := Run.step saved (.sendRecord _ sampleTime (some ⟨str "101" ++ sampleTime, 17⟩))
  have again := Run.step sent (.saveRecord _ 0 sampleRecord rfl)
  rw [show saveRecord _ _ _ _ = (place.fill sampleRecord).render by decide +kernel] at again
  have marked := claim _ _ _ _ again first ⟨str "100", 3⟩ [] [] (by decide) (by decide)
  revert marked
  decide +kernel

end Ecu.Forward
