import Ecu.Forward.Mark

/-!
# When a resend ends

The loop of `resend_record` looks up the first record with flag `'2'`, sends it, and looks again. The
answer decides whether the record it has just sent is still a `'2'` record. Stores are abstracted to
the list of their records' places, times and flags (`Store.entries`), on which a change by time is
`mark`; the loop is then read off the list of the records that wait (`waiting`). It ends within as many
transmissions as records wait when every answer confirms the record it answers (`resend_once`).
-/

namespace Ecu.Forward

open FirstMatch

/-! ## Entries -/

/-- What the client's queue knows of a record: where it stands, its time and flag. -/
structure Entry where
  place : Nat × Nat
  time : List Byte
  flag : Byte
deriving DecidableEq, Repr

variable {q : Queue}

/-- The entries of the lines of file `i` from line `j` on. -/
def fileEntries (i : Nat) : Nat → List (Line q) → List Entry
  | _, [] => []
  | j, .blank :: ls => fileEntries i (j + 1) ls
  | j, .record r :: ls => ⟨(i, j), r.key, r.flag⟩ :: fileEntries i (j + 1) ls

/-- The entries of the files from number `i` on. -/
def Store.entriesFrom : Nat → Store q → List Entry
  | _, [] => []
  | i, e :: s => fileEntries i 0 e.2 ++ entriesFrom (i + 1) s

def Store.entries (s : Store q) : List Entry :=
  s.entriesFrom 0

theorem fileEntries_append (i j : Nat) (a b : List (Line q)) :
    fileEntries i j (a ++ b) = fileEntries i j a ++ fileEntries i (j + a.length) b := by
  induction a generalizing j with
  | nil => rfl
  | cons l a ih =>
    have step : j + (l :: a).length = j + 1 + a.length := by simp only [List.length_cons]; omega
    cases l <;> simp only [List.cons_append, fileEntries, ih, step]

theorem Store.entriesFrom_append (i : Nat) (s t : Store q) :
    entriesFrom i (s ++ t) = entriesFrom i s ++ entriesFrom (i + s.length) t := by
  induction s generalizing i with
  | nil => rfl
  | cons e s ih =>
    have step : i + (e :: s).length = i + 1 + s.length := by simp only [List.length_cons]; omega
    simp only [List.cons_append, entriesFrom, ih, step, List.append_assoc]

theorem fileEntries_records (i j : Nat) (ls : List (Line q)) :
    (fileEntries i j ls).map (fun e => (e.time, e.flag)) = (Line.records ls).map fun r => (r.key, r.flag) := by
  induction ls generalizing j with
  | nil => rfl
  | cons l ls ih => cases l <;> simp [fileEntries, ih]

/-- Times and flags of the entries are those of the records, in order. -/
theorem Store.entriesFrom_records (i : Nat) (s : Store q) :
    (entriesFrom i s).map (fun e => (e.time, e.flag)) = s.records.map fun r => (r.key, r.flag) := by
  induction s generalizing i with
  | nil => rfl
  | cons e s ih => simp [entriesFrom, ih, fileEntries_records]

/-- Places are given out once. -/
theorem fileEntries_place {i j : Nat} {ls : List (Line q)} {e : Entry} (mem : e ∈ fileEntries i j ls) :
    e.place.1 = i ∧ j ≤ e.place.2 := by
  induction ls generalizing j with
  | nil => cases mem
  | cons l ls ih =>
    cases l with
    | blank => exact ⟨(ih mem).1, Nat.le_of_succ_le (ih mem).2⟩
    | record r =>
      rcases List.mem_cons.1 mem with rfl | mem
      · exact ⟨rfl, Nat.le_refl _⟩
      · exact ⟨(ih mem).1, Nat.le_of_succ_le (ih mem).2⟩

theorem Store.entriesFrom_place {i : Nat} {s : Store q} {e : Entry} (mem : e ∈ entriesFrom i s) :
    i ≤ e.place.1 := by
  induction s generalizing i with
  | nil => cases mem
  | cons f s ih =>
    rcases List.mem_append.1 mem with mem | mem
    · exact Nat.le_of_eq (fileEntries_place mem).1.symm
    · exact Nat.le_of_succ_le (ih mem)

theorem fileEntries_nodup (i j : Nat) (ls : List (Line q)) : ((fileEntries i j ls).map Entry.place).Nodup := by
  induction ls generalizing j with
  | nil => exact List.nodup_nil
  | cons l ls ih =>
    cases l with
    | blank => exact ih (j + 1)
    | record r =>
      refine List.nodup_cons.2 ⟨?_, ih (j + 1)⟩
      intro mem
      obtain ⟨e, inFile, place⟩ := List.mem_map.1 mem
      have after := (fileEntries_place inFile).2
      rw [place] at after
      exact Nat.not_succ_le_self j after

theorem Store.entriesFrom_nodup (i : Nat) (s : Store q) : ((entriesFrom i s).map Entry.place).Nodup := by
  induction s generalizing i with
  | nil => exact List.nodup_nil
  | cons f s ih =>
    rw [entriesFrom, List.map_append]
    refine List.Nodup.append (fileEntries_nodup i 0 f.2) (ih (i + 1)) ?_
    intro place here there
    obtain ⟨e, inFile, rfl⟩ := List.mem_map.1 here
    obtain ⟨e', inRest, same⟩ := List.mem_map.1 there
    have later := entriesFrom_place inRest
    rw [same, (fileEntries_place inFile).1] at later
    exact Nat.not_succ_le_self i later

/-- The coordinates of a place. -/
def Place.at (p : Place q) : Nat × Nat :=
  (p.before.length, p.above.length)

/-- The entries around a place do not depend on the record that stands there. -/
theorem Place.entries_fill (p : Place q) :
    ∃ before after : List Entry,
      before.map (fun e => (e.time, e.flag)) = p.preceding.map (fun r => (r.key, r.flag)) ∧
        ∀ r : Record q, (p.fill r).entries = before ++ ⟨p.at, r.key, r.flag⟩ :: after := by
  refine ⟨Store.entriesFrom 0 p.before ++ fileEntries p.before.length 0 p.above,
    fileEntries p.before.length (p.above.length + 1) p.below ++
      Store.entriesFrom (p.before.length + 1) p.after, ?_, ?_⟩
  · rw [List.map_append, Store.entriesFrom_records, fileEntries_records, preceding, List.map_append]
  · intro r
    simp only [Store.entries, fill, Store.entriesFrom_append, Store.entriesFrom, fileEntries_append,
      fileEntries, Nat.zero_add, Place.at, List.append_assoc, List.cons_append]

/-! ## Marking by time -/

/-- Put the flag on the first entry with the time. -/
def mark (time : List Byte) (c : Byte) (es : List Entry) : List Entry :=
  (modifyFirst (fun e => if e.time = time then some { e with flag := c } else none) es).getD es

@[simp] theorem mark_nil (time : List Byte) (c : Byte) : mark time c [] = [] := rfl

theorem mark_cons (time : List Byte) (c : Byte) (e : Entry) (es : List Entry) :
    mark time c (e :: es) = if e.time = time then { e with flag := c } :: es else e :: mark time c es := by
  unfold mark
  rw [modifyFirst]
  by_cases same : e.time = time
  · simp [same]
  · rw [if_neg same, if_neg same]
    cases modifyFirst (fun e => if e.time = time then some { e with flag := c } else none) es <;> rfl

theorem mark_append {time : List Byte} {c : Byte} {before : List Entry}
    (passed : ∀ e ∈ before, e.time ≠ time) (es : List Entry) :
    mark time c (before ++ es) = before ++ mark time c es := by
  induction before with
  | nil => rfl
  | cons e before ih =>
    rw [List.cons_append, mark_cons, if_neg (passed e List.mem_cons_self),
      ih fun x mem => passed x (List.mem_cons_of_mem _ mem), List.cons_append]

theorem mark_none {time : List Byte} {c : Byte} {es : List Entry} (none : ∀ e ∈ es, e.time ≠ time) :
    mark time c es = es := by
  simpa using mark_append none []

/-- A change by time is a `mark` of the entries. -/
theorem entries_change (s : Store .record) (time : List Byte) {c : Byte} (isFlag : IsFlag c) :
    (s.change (fun r => time == r.key) c isFlag).2.entries = mark time c s.entries := by
  rcases Store.change_cases (T := fun r : Record .record => time == r.key) isFlag s with
    ⟨unchanged, none⟩ | ⟨p, r, rfl, hit, passed, done⟩
  · rw [unchanged, mark_none]
    intro e mem same
    have inRecords : (e.time, e.flag) ∈ s.records.map fun r => (r.key, r.flag) := by
      rw [← Store.entriesFrom_records 0]
      exact List.mem_map_of_mem mem
    obtain ⟨r, inStore, key⟩ := List.mem_map.1 inRecords
    have keyTime : r.key = time := (Prod.mk.inj key).1.trans same
    exact absurd (none r inStore) (by simp [keyTime])
  · obtain ⟨before, after, times, entries⟩ := p.entries_fill
    have key : r.key = time := (beq_iff_eq.1 hit).symm
    rw [done, entries, entries, mark_append, mark_cons, if_pos key]
    · rfl
    · intro e mem same
      have inPreceding : (e.time, e.flag) ∈ p.preceding.map fun r => (r.key, r.flag) := by
        rw [← times]
        exact List.mem_map_of_mem mem
      obtain ⟨x, inStore, pair⟩ := List.mem_map.1 inPreceding
      have keyTime : x.key = time := (Prod.mk.inj pair).1.trans same
      exact absurd (passed x inStore) (by simp [keyTime])

/-- What an answer of three bytes or more does to the entries, after a transmission with this time. -/
def settle (time : List Byte) (r : Reply) (es : List Entry) : List Entry :=
  (confirmedTimes r.readbuff).foldl (fun es t => mark (t.take 14) (digit 0) es)
    (if r.readbuff.head? = some (digit 1) then mark time (digit 2) es else es)

theorem clearSendFlag_entries (s : Store .record) (readbuff : List Byte) :
    ∃ s' : Store .record, clearSendFlag s.render readbuff = s'.render ∧
      s'.entries = (confirmedTimes readbuff).foldl (fun es t => mark (t.take 14) (digit 0) es) s.entries := by
  rw [clearSendFlag_eq]
  generalize confirmedTimes readbuff = times
  induction times generalizing s with
  | nil => exact ⟨s, rfl, rfl⟩
  | cons time times ih =>
    obtain ⟨s', render, entries⟩ := ih (s.change (fun r => time.take 14 == r.key) (digit 0) isFlag_digit.1).2
    refine ⟨s', ?_, ?_⟩
    · rw [List.foldl_cons, changeResendflag_render s time isFlag_digit.1, render]
    · rw [entries, entries_change, List.foldl_cons]

theorem sendRecord_entries (s : Store .record) (time : List Byte) {r : Reply} (long : 3 ≤ r.readbytes) :
    ∃ s' : Store .record, sendRecord s.render time (some r) = (0, s'.render) ∧
      s'.entries = settle (time.take 14) r s.entries := by
  rw [sendRecord, if_neg (Nat.not_lt.2 long), settle]
  by_cases accepted : r.readbuff.head? = some (digit 1)
  · rw [if_pos accepted, if_pos accepted, updateSendFlag_eq, changeResendflag_render s time isFlag_digit.2.2]
    obtain ⟨s', render, entries⟩ :=
      clearSendFlag_entries (s.change (fun r => time.take 14 == r.key) (digit 2) isFlag_digit.2.2).2 r.readbuff
    exact ⟨s', by rw [render], by rw [entries, entries_change]⟩
  · rw [if_neg accepted, if_neg accepted]
    obtain ⟨s', render, entries⟩ := clearSendFlag_entries s r.readbuff
    exact ⟨s', by rw [render], entries⟩

/-! ## The records that wait -/

/-- A record with flag `'2'`: its place and time, and whether it is the first record of its time. -/
structure Waiting where
  place : Nat × Nat
  time : List Byte
  first : Bool
deriving DecidableEq, Repr

/-- The waiting records among the entries, after entries with the times `seen`. -/
def waitingFrom : List (List Byte) → List Entry → List Waiting
  | _, [] => []
  | seen, e :: es =>
    if e.flag = digit 2 then ⟨e.place, e.time, e.time ∉ seen⟩ :: waitingFrom (e.time :: seen) es
    else waitingFrom (e.time :: seen) es

def Store.waiting (s : Store q) : List Waiting :=
  waitingFrom [] s.entries

theorem waitingFrom_sublist (seen : List (List Byte)) (es : List Entry) :
    ((waitingFrom seen es).map Waiting.place).Sublist (es.map Entry.place) := by
  induction es generalizing seen with
  | nil => exact List.Sublist.slnil
  | cons e es ih =>
    rw [waitingFrom]
    split
    · exact (ih _).cons_cons _
    · exact (ih _).cons _

theorem Store.waiting_nodup (s : Store q) : (s.waiting.map Waiting.place).Nodup :=
  (s.entriesFrom_nodup 0).sublist (waitingFrom_sublist [] s.entries)

/-- As many wait as have the flag. -/
theorem Store.waiting_length (s : Store q) :
    s.waiting.length = (s.records.filter fun r => r.flag == digit 2).length := by
  have flags (seen : List (List Byte)) (es : List Entry) :
      (waitingFrom seen es).length = ((es.map fun e => (e.time, e.flag)).filter fun x => x.2 == digit 2).length := by
    induction es generalizing seen with
    | nil => rfl
    | cons e es ih =>
      by_cases two : e.flag = digit 2 <;> simp [waitingFrom, two, ih]
  rw [waiting, flags, entries, entriesFrom_records, List.filter_map, List.length_map]
  rfl

theorem waitingFrom_before {seen : List (List Byte)} {before : List Entry}
    (none : ∀ e ∈ before, e.flag ≠ digit 2) (es : List Entry) :
    waitingFrom seen (before ++ es) = waitingFrom ((before.map Entry.time).reverse ++ seen) es := by
  induction before generalizing seen with
  | nil => rfl
  | cons e before ih =>
    rw [List.cons_append, waitingFrom, if_neg (none e List.mem_cons_self),
      ih fun x mem => none x (List.mem_cons_of_mem _ mem)]
    simp

theorem first_not_seen {seen : List (List Byte)} {es : List Entry} {w : Waiting}
    (mem : w ∈ waitingFrom seen es) (first : w.first = true) : w.time ∉ seen := by
  induction es generalizing seen with
  | nil => cases mem
  | cons e es ih =>
    rw [waitingFrom] at mem
    split at mem
    · rcases List.mem_cons.1 mem with rfl | mem
      · simpa using first
      · exact fun old => ih mem (List.mem_cons_of_mem _ old)
    · exact fun old => ih mem (List.mem_cons_of_mem _ old)

/-- A confirmed time takes away the waiting record that is the first of that time, and only it. -/
theorem waitingFrom_mark {seen : List (List Byte)} {time : List Byte} (fresh : time ∉ seen) (es : List Entry) :
    waitingFrom seen (mark time (digit 0) es) =
      (waitingFrom seen es).filter fun w => !(w.first && w.time == time) := by
  induction es generalizing seen with
  | nil => rfl
  | cons e es ih =>
    rw [mark_cons]
    by_cases same : e.time = time
    · have kept : (waitingFrom (e.time :: seen) es).filter (fun w => !(w.first && w.time == time)) =
          waitingFrom (e.time :: seen) es := by
        rw [List.filter_eq_self]
        intro w mem
        by_cases first : w.first = true
        · have other : w.time ≠ time := fun here =>
            first_not_seen mem first (by rw [here, ← same]; exact List.mem_cons_self)
          simp [other]
        · simp [first]
      rw [if_pos same, waitingFrom, if_neg (show digit 0 ≠ digit 2 by decide), waitingFrom]
      split
      · rw [List.filter_cons_of_neg (by simp [same, fresh]), kept]
      · rw [kept]
    · rw [if_neg same, waitingFrom, waitingFrom]
      have later := @ih (e.time :: seen) (by
        intro mem
        rcases List.mem_cons.1 mem with here | mem
        · exact same here.symm
        · exact fresh mem)
      split
      · rw [List.filter_cons_of_pos (by simp [same]), later]
      · exact later

/-- The times an answer confirms, as they are compared. -/
def replyTimes (r : Reply) : List (List Byte) :=
  (confirmedTimes r.readbuff).map (List.take 14)

/-- The answer does not take this record's flag away. -/
def Waiting.spared (r : Reply) (w : Waiting) : Bool :=
  !(w.first && decide (w.time ∈ replyTimes r))

theorem not_spared {r : Reply} {w : Waiting} (first : w.first = true) (listed : w.time ∈ replyTimes r) :
    ¬ w.spared r = true := by
  simp [Waiting.spared, first, listed]

theorem waiting_clear (times : List (List Byte)) (es : List Entry) :
    waitingFrom [] (times.foldl (fun es t => mark (t.take 14) (digit 0) es) es) =
      (waitingFrom [] es).filter fun w => !(w.first && decide (w.time ∈ times.map (List.take 14))) := by
  induction times generalizing es with
  | nil => simp
  | cons time times ih =>
    rw [List.foldl_cons, ih, waitingFrom_mark List.not_mem_nil, List.filter_filter]
    apply List.filter_congr
    intro w _
    cases w.first <;> by_cases same : w.time = time.take 14 <;> simp [same]

/-- Marking the first waiting record as sent again changes nothing, if it is the first of its time. -/
theorem mark_waiting {es : List Entry} {w : Waiting} {ws : List Waiting} (head : waitingFrom [] es = w :: ws)
    (first : w.first = true) : mark w.time (digit 2) es = es := by
  suffices general : ∀ seen, waitingFrom seen es = w :: ws → mark w.time (digit 2) es = es from general [] head
  clear head
  intro seen head
  induction es generalizing seen with
  | nil => rfl
  | cons e es ih =>
    rw [waitingFrom] at head
    rw [mark_cons]
    split at head
    · rename_i two
      obtain ⟨rfl, -⟩ := List.cons.inj head
      rw [if_pos rfl, ← two]
    · have other : e.time ≠ w.time := fun same =>
        first_not_seen (show w ∈ waitingFrom _ es by rw [head]; exact List.mem_cons_self) first
          (by rw [same]; exact List.mem_cons_self)
      rw [if_neg other, ih _ head]

theorem waiting_settle {es : List Entry} {w : Waiting} {ws : List Waiting} (head : waitingFrom [] es = w :: ws)
    (first : w.first = true) (r : Reply) :
    waitingFrom [] (settle w.time r es) = (w :: ws).filter (Waiting.spared r) := by
  rw [settle, mark_waiting head first, ite_self, waiting_clear, head]
  rfl

/-! ## The loop -/

/-- The first record with the flag is the head of those that wait. -/
theorem waiting_first {s : Store .record} {p : Place .record} {r : Record .record}
    (first : s.FirstWith (digit 2) p r) :
    ∃ ws, s.waiting = ⟨p.at, r.key, decide (∀ x ∈ p.preceding, x.key ≠ r.key)⟩ :: ws := by
  obtain ⟨before, after, times, entries⟩ := p.entries_fill
  have none : ∀ e ∈ before, e.flag ≠ digit 2 := by
    intro e mem two
    have pair : (e.time, e.flag) ∈ p.preceding.map fun r => (r.key, r.flag) := times ▸ List.mem_map_of_mem mem
    obtain ⟨x, inPreceding, same⟩ := List.mem_map.1 pair
    exact first.passed x inPreceding ((Prod.mk.inj same).2.trans two)
  have keys : before.map Entry.time = p.preceding.map Record.key := by
    have firsts := congrArg (List.map Prod.fst) times
    simpa [Function.comp_def] using firsts
  rw [Store.waiting, first.split, entries, waitingFrom_before none, waitingFrom, if_pos first.flag, keys]
  refine ⟨_, congrArg (· :: _) ?_⟩
  simp [eq_comm]

theorem waiting_none {s : Store .record} (none : ∀ r ∈ s.records, r.flag ≠ digit 2) : s.waiting = [] := by
  rw [← List.length_eq_zero_iff, Store.waiting_length, List.length_eq_zero_iff, List.filter_eq_nil_iff]
  intro r mem
  simpa using none r mem

/-- `placeOf` names the place that the search copies from. -/
theorem placeOf_first {s : Store .record} {p : Place .record} {r : Record .record} {c : Byte}
    (first : s.FirstWith c p r) : placeOf s.render c = some p.at := by
  have clean {ls : List (Line .record)} (none : ∀ x ∈ Line.records ls, x.flag ≠ c) :
      ∀ line ∈ ls.map Line.bytes, hits recordSeps c line = false :=
    FirstMatch.splitFirst_none.1 (Line.splitFirst_none none)
  have hit : hits recordSeps c r.line = true := by
    have own : hits recordSeps c r.line = (r.flag == c) := hits_record r c
    rw [own, first.flag, beq_self_eq_true]
  let fileHits (f : File) : Bool := (buffLines f).any (hits recordSeps c)
  have files : s.render.findIdx? (fun e => fileHits e.2) = some p.before.length := by
    rw [first.split, Place.fill, Store.render_append]
    refine (findIdx?_hit ?_ ?_ _).trans (by rw [Store.render, List.length_map])
    · intro e mem
      obtain ⟨f, inBefore, rfl⟩ := List.mem_map.1 mem
      refine List.any_eq_false.2 fun line inFile => ?_
      rw [Store.buffLines_render] at inFile
      rw [Bool.not_eq_true]
      refine clean (fun x member => ?_) line inFile
      exact first.passed x (List.mem_append_left _ (List.mem_flatMap.2 ⟨f, inBefore, member⟩))
    · refine List.any_eq_true.2 ⟨r.line, ?_, hit⟩
      simp [Line.bytes]
  have lines : (s.render.map fun e => buffLines e.2).getD p.before.length [] =
      p.above.map Line.bytes ++ r.line :: p.below.map Line.bytes := by
    rw [Store.lines_render, first.split, Place.fill, List.map_append, List.getD_eq_getElem?_getD,
      List.getElem?_append_right (by simp)]
    simp [Line.bytes]
  have line := findIdx_hit (clean fun x mem => first.passed x (List.mem_append_right _ mem)) hit
    (p.below.map Line.bytes)
  unfold placeOf
  rw [files]
  dsimp only
  rw [lines, line, List.length_map, Place.at]

/-- One round of the loop on a store with a waiting record. -/
theorem resendLoop_first (answers : Nat → Option Reply) {s : Store .record} {p : Place .record}
    {r : Record .record} (first : s.FirstWith (digit 2) p r) (fuel k : Nat) :
    ∃ text time, time.take 14 = r.key ∧
      resendLoop answers (fuel + 1) k s.render =
        if (sendRecord s.render time (answers k)).1 = -1 then
          some ([⟨p.at, text⟩], (sendRecord s.render time (answers k)).2)
        else (resendLoop answers fuel (k + 1) (sendRecord s.render time (answers k)).2).map
          fun tail => (⟨p.at, text⟩ :: tail.1, tail.2) := by
  obtain ⟨flag, out, -⟩ := searchFlag_fill first (List.replicate dataBuffer nul) [List.replicate 15 nul]
  have search : searchReadflag s.render (List.replicate dataBuffer nul) (List.replicate 15 nul) (digit 2) = _ := out
  obtain ⟨key, keys, width⟩ := r.keys_one rfl
  refine ⟨cstr (memcpy (memset (List.replicate dataBuffer nul) nul 4) (r.payload ++ [newline])),
    (r.keysInto [List.replicate 15 nul]).getD 0 [], ?_, ?_⟩
  · simp [Record.keysInto, keys, memcpy, Record.key, ← width]
  · rw [resendLoop, search, placeOf_first first]
    rfl

theorem resendLoop_none {answers : Nat → Option Reply} {s : Store .record}
    (none : ∀ r ∈ s.records, r.flag ≠ digit 2) (fuel k : Nat) :
    resendLoop answers (fuel + 1) k s.render = some ([], s.render) := by
  have out := searchFlag_none none (List.replicate dataBuffer nul) [List.replicate 15 nul]
  have search : searchReadflag s.render (List.replicate dataBuffer nul) (List.replicate 15 nul) (digit 2) = _ := out
  rw [resendLoop, search]
  rfl

/-- The exchange failed, or its answer was too short to be one. -/
def Failed (answer : Option Reply) : Prop :=
  ∀ r, answer = some r → r.readbytes < 3

theorem sendRecord_failed {d : Dir} {time : List Byte} {answer : Option Reply} (failed : Failed answer) :
    sendRecord d time answer = (-1, d) := by
  cases answer with
  | none => rfl
  | some r => rw [sendRecord, if_pos (failed r rfl)]

theorem failed_or (answer : Option Reply) : Failed answer ∨ ∃ r, answer = some r ∧ 3 ≤ r.readbytes := by
  cases answer with
  | none => exact Or.inl fun r same => by cases same
  | some r =>
    rcases Nat.lt_or_ge r.readbytes 3 with short | long
    · refine Or.inl fun x same => ?_
      cases same
      exact short
    · exact Or.inr ⟨r, rfl, long⟩

/-- Up to the first failed exchange, every record sent is the first of its time and confirmed by the
answer to it. `answers k` answers the head of the list. -/
inductive Cleared (answers : Nat → Option Reply) : Nat → List Waiting → Prop where
  | done (k : Nat) : Cleared answers k []
  | failed {k : Nat} {w : Waiting} {ws : List Waiting} (failed : Failed (answers k)) : Cleared answers k (w :: ws)
  | confirmed {k : Nat} {w : Waiting} {ws : List Waiting} {r : Reply} (answer : answers k = some r)
      (long : 3 ≤ r.readbytes) (first : w.first = true) (listed : w.time ∈ replyTimes r)
      (later : Cleared answers (k + 1) (ws.filter (Waiting.spared r))) : Cleared answers k (w :: ws)

/-- A transmission whose record is the first of its time, answered. -/
theorem sendRecord_waiting {s : Store .record} {time : List Byte} {w : Waiting} {ws : List Waiting}
    (head : s.waiting = w :: ws) (same : time.take 14 = w.time) (first : w.first = true) {r : Reply}
    (long : 3 ≤ r.readbytes) :
    ∃ s' : Store .record, sendRecord s.render time (some r) = (0, s'.render) ∧
      s'.waiting = (w :: ws).filter (Waiting.spared r) := by
  obtain ⟨s', render, entries⟩ := sendRecord_entries s time long
  refine ⟨s', render, ?_⟩
  rw [Store.waiting, entries, same, waiting_settle head first]

/-- With cleared records the loop returns, and each transmission is of another record that waited. -/
theorem resendLoop_cleared {answers : Nat → Option Reply} {fuel k : Nat} {s : Store .record}
    (cleared : Cleared answers k s.waiting) (enough : s.waiting.length < fuel) :
    ∃ out, resendLoop answers fuel k s.render = some out ∧
      (out.1.map Sent.place).Sublist (s.waiting.map Waiting.place) := by
  induction fuel generalizing k s with
  | zero => exact absurd enough (Nat.not_lt_zero _)
  | succ fuel ih =>
    rcases exists_firstWith s (digit 2) with none | ⟨p, r, first⟩
    · exact ⟨_, resendLoop_none none fuel k, List.nil_sublist _⟩
    · obtain ⟨ws, head⟩ := waiting_first first
      obtain ⟨text, time, key, loop⟩ := resendLoop_first answers first fuel k
      rw [head] at cleared enough ⊢
      cases cleared with
      | failed failed =>
        rw [sendRecord_failed failed, if_pos rfl] at loop
        exact ⟨_, loop, (List.nil_sublist _).cons_cons _⟩
      | confirmed answer long alone listed later =>
        rename_i reply
        obtain ⟨s', render, waiting⟩ := sendRecord_waiting head key alone long
        rw [List.filter_cons_of_neg (not_spared alone listed)] at waiting
        have fewer := List.length_filter_le (Waiting.spared reply) ws
        rw [List.length_cons] at enough
        obtain ⟨out, rest, places⟩ := ih (s := s') (waiting ▸ later) (by rw [waiting]; omega)
        rw [answer, render, if_neg (show (0 : Int) ≠ -1 by decide)] at loop
        refine ⟨_, by rw [loop, rest, Option.map_some], ?_⟩
        rw [waiting] at places
        exact (places.trans (List.filter_sublist.map _)).cons_cons _

/-- A loop that returns without sending a record twice had its records cleared, if each of them was
the first of its time. -/
theorem cleared_of_resendLoop {answers : Nat → Option Reply} {fuel k : Nat} {s : Store .record}
    (alone : ∀ w ∈ s.waiting, w.first = true) {out : List Sent × Dir}
    (returned : resendLoop answers fuel k s.render = some out) (once : (out.1.map Sent.place).Nodup) :
    Cleared answers k s.waiting := by
  induction fuel generalizing k s out with
  | zero => cases returned
  | succ fuel ih =>
    rcases exists_firstWith s (digit 2) with none | ⟨p, r, first⟩
    · rw [waiting_none none]
      exact .done k
    · obtain ⟨ws, head⟩ := waiting_first first
      obtain ⟨text, time, key, loop⟩ := resendLoop_first answers first fuel k
      rw [head] at alone ⊢
      rcases failed_or (answers k) with failed | ⟨reply, answer, long⟩
      · exact .failed failed
      · have headFirst := alone _ List.mem_cons_self
        obtain ⟨s', render, waiting⟩ := sendRecord_waiting head key headFirst long
        rw [answer, render, if_neg (show (0 : Int) ≠ -1 by decide), returned] at loop
        obtain ⟨tail, rest, rfl⟩ := Option.map_eq_some_iff.1 loop.symm
        simp only [List.map_cons, List.nodup_cons] at once
        have later := ih (s := s') (by
          rw [waiting]
          exact fun w mem => alone w (List.mem_of_mem_filter mem)) rest once.2
        rw [waiting] at later
        by_cases listed : r.key ∈ replyTimes reply
        · rw [List.filter_cons_of_neg (not_spared headFirst listed)] at later
          exact .confirmed answer long headFirst listed later
        · -- the record still waits, so the next round sends it again
          rw [List.filter_cons_of_pos (by simp [Waiting.spared, listed])] at waiting
          rcases exists_firstWith s' (digit 2) with none | ⟨p', r', first'⟩
          · rw [waiting_none none] at waiting
            cases waiting
          · obtain ⟨ws', head'⟩ := waiting_first first'
            rw [head'] at waiting
            have samePlace : p'.at = p.at := congrArg Waiting.place (List.cons.inj waiting).1
            cases fuel with
            | zero => cases rest
            | succ fuel =>
              obtain ⟨text', time', -, loop'⟩ := resendLoop_first answers first' fuel (k + 1)
              rw [rest] at loop'
              have sentAgain : p.at ∈ tail.1.map Sent.place := by
                split at loop'
                · cases loop'
                  exact List.mem_singleton.2 samePlace.symm
                · obtain ⟨tail', -, rfl⟩ := Option.map_eq_some_iff.1 loop'.symm
                  exact List.mem_cons.2 (Or.inl samePlace.symm)
              exact absurd sentAgain once.1

/-- One call of `resend_record` returns after at most as many transmissions as records have the flag
`'2'`, and no record is sent twice. -/
def ResendsOnce (s : Store .record) (answers : Nat → Option Reply) : Prop :=
  ∃ out, resendRecord answers ((s.records.filter fun r => r.flag == digit 2).length + 1) s.render = some out ∧
    out.1.length ≤ (s.records.filter fun r => r.flag == digit 2).length ∧ (out.1.map Sent.place).Nodup

theorem resend_once (s : Store .record) (answers : Nat → Option Reply) :
    (Cleared answers 0 s.waiting → ResendsOnce s answers) ∧
      ((∀ w ∈ s.waiting, w.first = true) → ResendsOnce s answers → Cleared answers 0 s.waiting) := by
  constructor
  · intro cleared
    obtain ⟨out, returned, places⟩ := resendLoop_cleared cleared (Nat.lt_succ_self _)
    rw [ResendsOnce, ← Store.waiting_length]
    refine ⟨out, returned, ?_, s.waiting_nodup.sublist places⟩
    simpa using places.length_le
  · rintro alone ⟨out, returned, -, once⟩
    exact cleared_of_resendLoop alone returned once

/-- Answers that accept and confirm nothing keep the loop at the first waiting record for ever. -/
theorem resendLoop_stalls {answers : Nat → Option Reply} {p : Place .record} {r : Record .record}
    (two : r.flag = digit 2) (passed : ∀ x ∈ p.preceding, x.flag ≠ digit 2)
    (alone : ∀ x ∈ p.preceding, x.key ≠ r.key)
    (answered : ∀ k, ∃ reply, answers k = some reply ∧ 3 ≤ reply.readbytes ∧
      reply.readbuff.head? = some (digit 1) ∧ confirmedTimes reply.readbuff = [])
    (fuel k : Nat) : resendLoop answers fuel k (p.fill r).render = none := by
  induction fuel generalizing k with
  | zero => rfl
  | succ fuel ih =>
    obtain ⟨text, time, key, loop⟩ := resendLoop_first answers ⟨rfl, two, passed⟩ fuel k
    obtain ⟨reply, answer, long, accepted, none⟩ := answered k
    have unchanged : (changeResendflag (p.fill r).render time (digit 2)).2 = (p.fill r).render := by
      have same : r.withFlag (digit 2) isFlag_digit.2.2 = r := by
        cases r
        cases two
        rfl
      rw [changeResendflag_render _ time isFlag_digit.2.2, key,
        Store.change_fill (by simp) fun x mem => by simpa using fun same => alone x mem same.symm, same]
    rw [loop, answer, sendRecord_marks long accepted none, unchanged, if_neg (show (0 : Int) ≠ -1 by decide), ih]
    rfl

/-- A resend whose answer confirms the one record that waits. -/
theorem resend_once_sample :
    ResendsOnce ((samplePlace []).fill (sampleRecord.withFlag (digit 2) isFlag_digit.2.2))
      (fun _ => some ⟨str "101" ++ sampleTime, 17⟩) :=
  (resend_once _ _).1 (.confirmed rfl (by decide) rfl (by decide) (.done 1))

/-- The server accepts the record again and again and confirms no time: no call returns. -/
theorem resend_never_returns : ¬ ∀ (s : Store .record) (answers : Nat → Option Reply), ResendsOnce s answers := by
  intro claim
  obtain ⟨out, returned, -⟩ := claim ((samplePlace []).fill (sampleRecord.withFlag (digit 2) isFlag_digit.2.2))
    fun _ => some ⟨str "100", 3⟩
  rw [resendRecord, resendLoop_stalls rfl (fun x mem => absurd mem List.not_mem_nil)
    (fun x mem => absurd mem List.not_mem_nil)
    fun _ => ⟨⟨str "100", 3⟩, rfl, Nat.le_refl 3, by decide, by decide⟩] at returned
  cases returned

end Ecu.Forward
