import Ecu.Forward.Run

/-!
# Nothing outstanding is lost

`Keeps L d` is the invariant of a run: the directory is a rendered store and the saved records `L`
are in it, unconfirmed. Every flag change of the four queues is a `Store.change` (the `_render`
theorems); what such a change does to the unconfirmed records is said once
(`Store.unconfirmed_change`), and `Step.keeps` follows case by case.
-/

namespace Ecu.Forward

variable {q : Queue}

/-! ## The change functions on stores -/

/-- The test of the queues that are keyed by a time. -/
theorem timeTest_line (time : List Byte) (r : Record q) (seps : q.seps = [3, 18]) (widths : q.widths = [14]) :
    (separated [3, 18] r.line && time.take 14 == sliceFromEnd r.line 17 14) = (time.take 14 == r.key) := by
  rw [← seps, r.separated_line, Bool.true_and, r.sliceFromEnd_key (w := 14) (by simp [widths])]

theorem changeResendflag_render (s : Store .record) (time : List Byte) {c : Byte} (isFlag : IsFlag c) :
    changeResendflag s.render time c =
      ((s.change (fun r => time.take 14 == r.key) c isFlag).1,
        (s.change (fun r => time.take 14 == r.key) c isFlag).2.render) :=
  Store.changeFlag_render isFlag (fun r => timeTest_line time r rfl rfl) (by simp [recordSeps]) s

theorem changeStatusflag_render (s : Store .status) (time : List Byte) {c : Byte} (isFlag : IsFlag c) :
    changeStatusflag s.render time c =
      ((s.change (fun r => time.take 14 == r.key) c isFlag).1,
        (s.change (fun r => time.take 14 == r.key) c isFlag).2.render) :=
  Store.changeFlag_render isFlag (fun r => timeTest_line time r rfl rfl) (by simp) s

theorem changeStatusflag1_render (s : Store .status) :
    changeStatusflag1 s.render =
      ((s.change (fun r => r.flag == digit 2) (digit 1) isFlag_digit.2.1).1,
        (s.change (fun r => r.flag == digit 2) (digit 1) isFlag_digit.2.1).2.render) :=
  Store.changeFlag_render _ (fun r => by simp [separated, r.long_line]) (by simp) s

/-- The test of the result queues, which are keyed by a command number. -/
theorem itemTest_line (item : List Byte) (r : Record q) {seps : List Nat} (own : q.seps = seps)
    (last : q.widths.getLast? = some 3) :
    (separated seps r.line && fromEnd r.line 2 == some (digit 1) &&
        item.take 4 == sliceFromEnd r.line 6 3 ++ [nul]) =
      (r.flag == digit 1 && item.take 4 == r.key ++ [nul]) := by
  rw [← own, r.separated_line, Bool.true_and, r.sliceFromEnd_key (w := 3) last]
  simp

theorem changeProResultFlag_render (s : Store .proResult) (item : List Byte) {c : Byte} (isFlag : IsFlag c) :
    changeProResultFlag s.render item c =
      ((s.change (fun r => r.flag == digit 1 && item.take 4 == r.key ++ [nul]) c isFlag).1,
        (s.change (fun r => r.flag == digit 1 && item.take 4 == r.key ++ [nul]) c isFlag).2.render) :=
  Store.changeFlag_render isFlag (fun r => itemTest_line item r rfl rfl) (by simp) s

theorem changeInvProResultFlag_render (s : Store .invProResult) (item : List Byte) {c : Byte}
    (isFlag : IsFlag c) :
    changeInvProResultFlag s.render item c =
      ((s.change (fun r => r.flag == digit 1 && item.take 4 == r.key ++ [nul]) c isFlag).1,
        (s.change (fun r => r.flag == digit 1 && item.take 4 == r.key ++ [nul]) c isFlag).2.render) :=
  Store.changeFlag_render isFlag (fun r => itemTest_line item r rfl rfl) (by simp) s

/-! ## Retries -/

/-- A change that finds no record changes nothing, so that a retry finds none either. -/
theorem attempts_succ {f : Dir → Nat × Dir} (keeps : ∀ d, (f d).1 = 1 ∨ f d = (0, d)) (n : Nat) (d : Dir) :
    attempts f (n + 1) d = (f d).2 := by
  induction n with
  | zero =>
    rcases keeps d with one | none
    · rw [attempts, if_pos one]
    · simp [attempts, none]
  | succ n ih =>
    rcases keeps d with one | none
    · rw [attempts, if_pos one]
    · rw [attempts, none, if_neg Nat.zero_ne_one, ih, none]

theorem changeFlag_cases (test : List Byte → Bool) (c : Byte) (d : Dir) :
    (changeFlag test c d).1 = 1 ∨ changeFlag test c d = (0, d) := by
  unfold changeFlag
  split
  · exact Or.inl rfl
  · exact Or.inr rfl

theorem updateSendFlag_eq (d : Dir) (time : List Byte) :
    updateSendFlag d time = (changeResendflag d time (digit 2)).2 :=
  attempts_succ (fun _ => changeFlag_cases _ _ _) 2 d

theorem clearSendFlag_eq (d : Dir) (readbuff : List Byte) :
    clearSendFlag d readbuff =
      (confirmedTimes readbuff).foldl (fun d time => (changeResendflag d time (digit 0)).2) d := by
  unfold clearSendFlag
  congr 1
  funext d time
  exact attempts_succ (fun _ => changeFlag_cases _ _ _) 2 d

/-! ## The unconfirmed records -/

namespace Store

theorem unconfirmed_fill (p : Place q) (r : Record q) :
    (p.fill r).unconfirmed =
      (p.preceding.filter fun x => x.flag != digit 0).map Record.saved ++
        ((if r.flag = digit 0 then [] else [r.saved]) ++
          ((p.sameFile ++ p.laterFiles).filter fun x => x.flag != digit 0).map Record.saved) := by
  rw [unconfirmed, Place.records_fill, List.filter_append, List.map_append, List.filter_cons]
  by_cases zero : r.flag = digit 0 <;> simp [zero]

/-- A change to a flag other than `'0'` leaves every unconfirmed record unconfirmed. -/
theorem unconfirmed_change {T : Record q → Bool} {c : Byte} {isFlag : IsFlag c} (kept : c ≠ digit 0)
    (s : Store q) : s.unconfirmed.Subperm (s.change T c isFlag).2.unconfirmed := by
  rcases change_cases (T := T) isFlag s with ⟨none, -⟩ | ⟨p, r, rfl, -, -, done⟩
  · rw [none]
  · rw [done, unconfirmed_fill, unconfirmed_fill]
    refine List.Sublist.subperm (List.Sublist.append_left (List.Sublist.append_right ?_ _) _)
    simp only [Record.withFlag_flag, kept, if_false, Record.withFlag_saved]
    split
    · exact List.nil_sublist _
    · exact List.Sublist.refl _

/-- A change to `'0'` takes away at most a record that passes the test. -/
theorem unconfirmed_confirm {T : Record q → Bool} {isFlag : IsFlag (digit 0)} {spared : Saved → Bool}
    (excluded : ∀ r, T r = true → spared r.saved = false) (s : Store q) :
    (s.unconfirmed.filter spared).Subperm (s.change T (digit 0) isFlag).2.unconfirmed := by
  rcases change_cases (T := T) isFlag s with ⟨none, -⟩ | ⟨p, r, rfl, hit, -, done⟩
  · rw [none]
    exact List.filter_sublist.subperm
  · rw [done, unconfirmed_fill, unconfirmed_fill]
    simp only [Record.withFlag_flag, if_true, List.nil_append, List.filter_append]
    have gone : (if r.flag = digit 0 then [] else [r.saved]).filter spared = [] := by
      split <;> simp [excluded r hit]
    rw [gone, List.nil_append]
    exact (List.Sublist.append (List.filter_sublist) (List.filter_sublist)).subperm

theorem mem_change {T : Record q → Bool} {c : Byte} {isFlag : IsFlag c} {s : Store q} {x : Record q}
    (mem : x ∈ (s.change T c isFlag).2.records) : x ∈ s.records ∨ x.flag = c := by
  rcases change_cases (T := T) isFlag s with ⟨none, -⟩ | ⟨p, r, rfl, -, -, done⟩
  · rw [none] at mem
    exact Or.inl mem
  · rw [done, Place.records_fill] at mem
    rw [Place.records_fill]
    rcases List.mem_append.1 mem with mem | mem
    · exact Or.inl (List.mem_append_left _ mem)
    · rcases List.mem_cons.1 mem with rfl | mem
      · exact Or.inr rfl
      · exact Or.inl (List.mem_append_right _ (List.mem_cons_of_mem _ mem))

/-- Deleting takes away confirmed records only. -/
theorem unconfirmed_delete (s : Store q) : s.delete.unconfirmed = s.unconfirmed := by
  unfold unconfirmed
  congr 1
  induction s with
  | nil => rfl
  | cons e s ih =>
    rw [records_cons, List.filter_append, ← ih, delete, List.filter_cons]
    split
    · rw [records_cons, List.filter_append]
      rfl
    · rename_i confirmed
      have none : (Line.records e.2).filter (fun r => r.flag != digit 0) = [] :=
        List.filter_eq_nil_iff.2 fun r mem pending => confirmed (List.any_eq_true.2 ⟨r, mem, pending⟩)
      rw [none, List.nil_append]
      rfl

theorem mem_delete {s : Store q} {r : Record q} (mem : r ∈ s.delete.records) : r ∈ s.records := by
  obtain ⟨e, inStore, inFile⟩ := List.mem_flatMap.1 mem
  exact List.mem_flatMap.2 ⟨e, List.mem_of_mem_filter inStore, inFile⟩

end Store

/-! ## The invariant -/

/-- The store holds the saved records `L` unconfirmed, and no flags but the three. -/
structure Stored (L : List Saved) (s : Store q) : Prop where
  flags : ∀ r ∈ s.records, r.flag = digit 0 ∨ r.flag = digit 1 ∨ r.flag = digit 2
  kept : L.Subperm s.unconfirmed

/-- The directory renders a store that holds `L`. -/
def Keeps (q : Queue) (L : List Saved) (d : Dir) : Prop :=
  ∃ s : Store q, d = s.render ∧ Stored L s

theorem Stored.change {L : List Saved} {s : Store q} (stored : Stored L s) {T : Record q → Bool} {c : Byte}
    {isFlag : IsFlag c} (sent : c = digit 1 ∨ c = digit 2) : Stored L (s.change T c isFlag).2 where
  flags := by
    intro x mem
    rcases Store.mem_change mem with mem | flag
    · exact stored.flags x mem
    · rcases sent with rfl | rfl
      · exact Or.inr (Or.inl flag)
      · exact Or.inr (Or.inr flag)
  kept := by
    have kept : c ≠ digit 0 := by rcases sent with rfl | rfl <;> decide
    exact stored.kept.trans (Store.unconfirmed_change kept s)

theorem Stored.confirm {L : List Saved} {s : Store q} (stored : Stored L s) {T : Record q → Bool}
    {isFlag : IsFlag (digit 0)} {spared : Saved → Bool}
    (excluded : ∀ r, T r = true → spared r.saved = false) :
    Stored (L.filter spared) (s.change T (digit 0) isFlag).2 where
  flags := by
    intro x mem
    rcases Store.mem_change mem with mem | flag
    · exact stored.flags x mem
    · exact Or.inl flag
  kept := (stored.kept.filter spared).trans (Store.unconfirmed_confirm excluded s)

theorem Stored.save {L : List Saved} {s : Store q} (stored : Stored L s) (pos : Nat) (name : List Byte)
    {r : Record q} (isNew : r.flag = digit 1) :
    Stored (r.saved :: L) (s.append pos name [.blank, .record r]) where
  flags := by
    intro x mem
    rcases List.mem_cons.1 ((s.records_append_perm pos name _).subset mem) with rfl | mem
    · exact Or.inr (Or.inl isNew)
    · exact stored.flags x mem
  kept := by
    have perm := ((s.records_append_perm pos name [.blank, .record r]).filter
      fun x => x.flag != digit 0).map Record.saved
    rw [Line.records_blank, Line.records_record, Line.records_nil, List.singleton_append,
      List.filter_cons_of_pos (by rw [isNew]; decide), List.map_cons] at perm
    exact (List.subperm_cons _ |>.2 stored.kept).trans perm.symm.subperm

theorem Keeps.save {L : List Saved} {d : Dir} (keeps : Keeps q L d) (pos : Nat) (name : List Byte)
    {r : Record q} (isNew : r.flag = digit 1) :
    Keeps q (r.saved :: L) (appendFile d pos name (newline :: r.line)) := by
  obtain ⟨s, rfl, stored⟩ := keeps
  refine ⟨s.append pos name [.blank, .record r], ?_, stored.save pos name isNew⟩
  rw [← Store.append_render]
  simp [Store.renderFile, Line.bytes]

theorem Keeps.filter {L : List Saved} {d : Dir} (keeps : Keeps q L d) (spared : Saved → Bool) :
    Keeps q (L.filter spared) d := by
  obtain ⟨s, same, stored⟩ := keeps
  exact ⟨s, same, stored.flags, List.filter_sublist.subperm.trans stored.kept⟩

theorem Keeps.delete {L : List Saved} {d : Dir} (keeps : Keeps q L d) : Keeps q L (q.delete d) := by
  obtain ⟨s, rfl, stored⟩ := keeps
  refine ⟨s.delete, delete_render s, ?_, ?_⟩
  · intro r mem
    exact stored.flags r (Store.mem_delete mem)
  · rw [Store.unconfirmed_delete]
    exact stored.kept

/-! ## The queue of the client -/

theorem Keeps.resendflag {L : List Saved} {d : Dir} (keeps : Keeps .record L d) (time : List Byte) :
    Keeps .record L (changeResendflag d time (digit 2)).2 := by
  obtain ⟨s, rfl, stored⟩ := keeps
  exact ⟨_, by rw [changeResendflag_render s time isFlag_digit.2.2], stored.change (Or.inr rfl)⟩

/-- What a time settles. -/
theorem excluded_time (time : List Byte) (r : Record q) (hit : (time.take 14 == r.key) = true) :
    (decide (r.saved.2.getLastD [] ≠ time.take 14)) = false := by
  rw [decide_eq_false_iff_not, not_not]
  exact (beq_iff_eq.1 hit).symm

theorem Keeps.clearSendFlag {L : List Saved} {d : Dir} (keeps : Keeps .record L d) (readbuff : List Byte) :
    Keeps .record (L.filter fun x => x.2.getLastD [] ∉ (confirmedTimes readbuff).map (List.take 14))
      (clearSendFlag d readbuff) := by
  rw [clearSendFlag_eq]
  generalize confirmedTimes readbuff = times
  induction times generalizing L d with
  | nil => simpa using keeps
  | cons time times ih =>
    obtain ⟨s, rfl, stored⟩ := keeps
    have next : Keeps .record (L.filter fun x => x.2.getLastD [] ≠ time.take 14)
        (changeResendflag s.render time (digit 0)).2 :=
      ⟨_, by rw [changeResendflag_render s time isFlag_digit.1], stored.confirm (excluded_time time)⟩
    have rest := ih next
    rw [List.filter_filter] at rest
    rw [List.foldl_cons]
    convert rest using 3
    simp [Bool.and_comm]

theorem Keeps.sendRecord {L : List Saved} {d : Dir} (keeps : Keeps .record L d) (time : List Byte)
    (answer : Option Reply) :
    Keeps .record (L.filter fun x => x.2.getLastD [] ∉ (answerTimes answer).map (List.take 14))
      (sendRecord d time answer).2 := by
  unfold Forward.sendRecord
  cases answer with
  | none => exact keeps.filter _
  | some r =>
    simp only [answerTimes]
    split
    · exact keeps.filter _
    · apply Keeps.clearSendFlag
      split
      · rw [updateSendFlag_eq]
        exact keeps.resendflag time
      · exact keeps

theorem Keeps.preprocess {L : List Saved} {d : Dir} (keeps : Keeps .record L d) (answer : Option Reply) :
    Keeps .record (L.filter fun x => x.2.getLastD [] ∉ (answerTimes answer).map (List.take 14))
      (preprocess d answer).2 := by
  unfold Forward.preprocess
  split
  · exact keeps.filter _
  · cases answer with
    | none => exact keeps.filter _
    | some r =>
      simp only [answerTimes]
      split
      · exact keeps.clearSendFlag r.readbuff
      · exact keeps.filter _

/-! ## The result queues -/

/-- The record a search hands out and the record the change clears are the same one: both are the
first with flag `'1'`. -/
theorem Stored.transmit {L : List Saved} {s : Store q} (stored : Stored L s) {p : Place q} {r : Record q}
    (first : s.FirstWith (digit 1) p r) {item : List Byte} (own : item.take 4 = r.key ++ [nul])
    (isFlag : IsFlag (digit 0)) :
    Stored (L.erase r.saved)
      (s.change (fun r => r.flag == digit 1 && item.take 4 == r.key ++ [nul]) (digit 0) isFlag).2 where
  flags := by
    intro x mem
    rcases Store.mem_change mem with mem | flag
    · exact stored.flags x mem
    · exact Or.inl flag
  kept := by
    have kept := stored.kept
    obtain ⟨rfl, flag, passed⟩ := first
    rw [Store.change_fill (by simp [flag, own]) fun x mem => by simp [passed x mem]]
    rw [Store.unconfirmed_fill] at kept ⊢
    rw [if_neg (by rw [flag]; decide), List.singleton_append] at kept
    rw [Record.withFlag_flag, if_pos rfl, List.nil_append]
    exact (List.Subperm.erase r.saved kept).trans
      ((List.perm_middle.erase r.saved).trans (by rw [List.erase_cons_head])).subperm

/-- What a search handed out, read back from the caller's buffers. -/
theorem search_saved {s : Store q} {p : Place q} {r : Record q} {c : Byte} (first : s.FirstWith c p r)
    (data key id : List Byte) {w : Nat} (last : q.widths.getLast? = some w) (terminated : key.drop w = [nul])
    (ids : ∀ k ∈ (q.buffers key id).tail, k.drop 12 = [nul]) :
    (q.search s.render data key id c).saved = r.saved ∧
      ((q.search s.render data key id c).keys.getD 0 []).take (w + 1) = r.key ++ [nul] := by
  obtain ⟨flag, out, -⟩ := searchFlag_fill first data (q.buffers key id)
  have payload : (memcpy (memset data nul 4) (r.payload ++ [newline])).takeWhile (· != newline) = r.payload := by
    rw [memcpy, List.append_assoc, List.takeWhile_append_of_pos, List.singleton_append,
      List.takeWhile_cons_of_neg (by simp), List.append_nil]
    intro b mem
    simpa using (r.payloadText b mem).2
  have field (buffer : List Byte) {k : List Byte} (text : IsText k) (rest : buffer.drop k.length = [nul]) :
      memcpy buffer k = k ++ [nul] ∧ cstr (k ++ [nul]) = k := by
    rw [memcpy, rest]
    refine ⟨rfl, ?_⟩
    rw [cstr, List.takeWhile_append_of_pos]
    · simp
    · intro b mem
      simpa using (text b mem).1
  have keysText := r.keysText
  rw [search_eq, out, SearchOut.saved, Record.saved, payload, Record.keysInto, Record.key]
  cases q with
  | record | status | proResult =>
    obtain ⟨k, keys, width⟩ := r.keys_one rfl
    cases last
    rw [keys] at keysText ⊢
    obtain ⟨copied, read⟩ := field _ (keysText k List.mem_cons_self) (by rw [width]; exact terminated)
    simp [Queue.buffers, read, copied, List.take_of_length_le, width]
  | invProResult =>
    obtain ⟨i, k, keys, idWidth, width⟩ := r.keys_two rfl
    cases last
    rw [keys] at keysText ⊢
    obtain ⟨copied, read⟩ := field _ (keysText k (by simp)) (by rw [width]; exact terminated)
    obtain ⟨idCopied, idRead⟩ := field id (keysText i (by simp)) (by
      rw [idWidth]
      exact ids id (by simp [Queue.buffers]))
    simp [Queue.buffers, read, copied, idCopied, idRead, List.take_of_length_le, width]

/-- A search that returns 1 found the first record with the flag. -/
theorem first_of_found {s : Store q} {data key : List Byte} (id : List Byte) {c : Byte}
    (found : (q.search s.render data key id c).ret = 1) : ∃ p r, s.FirstWith c p r := by
  rcases exists_firstWith s c with none | first
  · rw [search_eq, searchFlag_none none] at found
    cases found
  · exact first

/-! ## Runs -/

/-- The line that a save function writes. -/
theorem line_one {r : Record q} {w : Nat} (one : q.widths = [w]) (isNew : r.flag = digit 1) :
    r.payload ++ comma :: r.key ++ [comma, digit 1, newline] = r.line := by
  obtain ⟨key, keys, -⟩ := r.keys_one one
  simp [Record.line, Record.tailBytes, Record.key, keys, isNew]

theorem Step.keeps {d d' : Dir} {e : Event} {es : List Event} (step : Step q d e d')
    (keeps : Keeps q (outstanding q.sentSettles es) d) :
    Keeps q (outstanding q.sentSettles (e :: es)) d' := by
  cases step with
  | saveRecord _ pos r isNew =>
    rw [Forward.saveRecord, line_one rfl isNew]
    exact keeps.save pos _ isNew
  | sendRecord _ time answer => exact keeps.sendRecord time answer
  | preprocess _ answer => exact keeps.preprocess answer
  | saveStatus _ pos r isNew =>
    rw [Forward.saveStatus, line_one rfl isNew]
    exact keeps.save pos _ isNew
  | statusSent _ time =>
    obtain ⟨s, rfl, stored⟩ := keeps
    exact ⟨_, by rw [changeStatusflag_render s time isFlag_digit.2.2], stored.change (Or.inr rfl)⟩
  | statusConfirmed _ time =>
    obtain ⟨s, rfl, stored⟩ := keeps
    refine ⟨_, by rw [changeStatusflag_render s time isFlag_digit.1], ?_⟩
    simp only [outstanding, List.map_cons, List.map_nil, List.mem_singleton]
    exact stored.confirm (excluded_time time)
  | statusRequeued _ =>
    obtain ⟨s, rfl, stored⟩ := keeps
    exact ⟨_, by rw [changeStatusflag1_render s], stored.change (Or.inl rfl)⟩
  | saveProResult _ pos time item result r isNew keys payload =>
    have line := line_one (r := r) rfl isNew
    rw [Record.key, keys, payload] at line
    simp only [List.getLastD_cons, List.getLastD_nil] at line
    rw [Forward.saveProcessResult, line]
    exact keeps.save pos _ isNew
  | proResultSent _ data item terminated found =>
    obtain ⟨s, rfl, stored⟩ := keeps
    obtain ⟨p, r, first⟩ := first_of_found (q := .proResult) [] found
    obtain ⟨saved, key⟩ := search_saved first data item [] rfl terminated (by simp [Queue.buffers])
    refine ⟨_, by rw [changeProResultFlag_render s _ isFlag_digit.1], ?_⟩
    have settled := stored.transmit first key isFlag_digit.1
    rw [← saved] at settled
    exact settled
  | saveInvProResult _ pos time id item r isNew keys =>
    have line : r.payload ++ comma :: id ++ comma :: format3d item ++ [comma, digit 1, newline] = r.line := by
      simp [Record.line, Record.tailBytes, keys, isNew]
    rw [Forward.saveInverterParametersResult, line]
    exact keeps.save pos _ isNew
  | invProResultSent _ data item id terminated idTerminated found =>
    obtain ⟨s, rfl, stored⟩ := keeps
    obtain ⟨p, r, first⟩ := first_of_found (q := .invProResult) _ found
    obtain ⟨saved, key⟩ := search_saved first data item id rfl terminated (by
      simpa [Queue.buffers] using idTerminated)
    refine ⟨_, by rw [changeInvProResultFlag_render s _ isFlag_digit.1], ?_⟩
    have settled := stored.transmit first key isFlag_digit.1
    rw [← saved] at settled
    exact settled
  | delete => exact keeps.delete

theorem Run.keeps {es : List Event} {d : Dir} (run : Run q es d) :
    Keeps q (outstanding q.sentSettles es) d := by
  induction run with
  | start => exact ⟨[], rfl, by simp, List.nil_subperm⟩
  | step _ step ih => exact step.keeps ih

/-- The delete function of a queue unlinks the files without an unconfirmed record and no others, and
at the end of every run all that is outstanding is in the store with flag `'1'` or `'2'`. -/
theorem outstanding_stored (q : Queue) :
    (∀ s : Store q, q.delete s.render = s.delete.render) ∧
      ∀ es d, Run q es d → ∃ s : Store q, d = s.render ∧
        (∀ r ∈ s.records, r.flag = digit 0 ∨ r.flag = digit 1 ∨ r.flag = digit 2) ∧
        (outstanding q.sentSettles es).Subperm s.unconfirmed := by
  refine ⟨delete_render, ?_⟩
  intro es d run
  obtain ⟨s, same, stored⟩ := run.keeps
  exact ⟨s, same, stored.flags, stored.kept⟩

/-- The command number of `sampleResult`, its day. -/
def sampleTime : List Byte := str "20240101120000"

theorem sample_saved (d : Dir) :
    Step .proResult d (.saved sampleResult.saved) (saveProcessResult d 0 sampleTime 115 sampleResult.payload) :=
  .saveProResult d 0 sampleTime 115 sampleResult.payload sampleResult rfl (by decide) (by decide)

/-- One saved result is in the store. -/
theorem outstanding_stored_sample :
    ∃ s : Store .proResult, saveProcessResult [] 0 sampleTime 115 sampleResult.payload = s.render ∧
      (∀ r ∈ s.records, r.flag = digit 0 ∨ r.flag = digit 1 ∨ r.flag = digit 2) ∧
      [sampleResult.saved].Subperm s.unconfirmed :=
  (outstanding_stored .proResult).2 [.saved sampleResult.saved] _ (.step .start (sample_saved []))

/-- A result that the socket took is deleted without any word of EMA. -/
theorem sent_result_deleted :
    ¬ ∀ (q : Queue) (es : List Event) (d : Dir), Run q es d →
      ∃ s : Store q, d = s.render ∧ (outstanding false es).Subperm s.unconfirmed := by
  intro claim
  have saved := Run.step .start (sample_saved [])
  have sent := Run.step saved (.proResultSent _ [] [nul, nul, nul, nul] rfl (by decide +kernel))
  have deleted := Run.step sent (.delete .proResult _)
  obtain ⟨s, same, kept⟩ := claim _ _ _ deleted
  have empty : s = [] := by
    apply List.map_eq_nil_iff.1
    rw [← Store.render, ← same]
    decide +kernel
  subst empty
  have none := kept.length_le
  rw [show (Store.unconfirmed ([] : Store .proResult)).length = 0 from rfl] at none
  revert none
  decide +kernel

end Ecu.Forward
