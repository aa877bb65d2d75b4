import Ecu.Totals.Sums

/-!
# A call in which something goes wrong

Until the old file is removed the total stands in it, and the new one is in the file when the row is written. Where
the call stops in between, or the row is not written, the total of the day is gone.
-/

namespace Ecu.Totals

open Command

/-- What goes wrong after the old file is gone, so that the row is not written. -/
def Fault.Loses : Fault → Prop
  | .stops .rename | .stops .openAppend | .stops .write | .fails .openAppend | .fails .write => True
  | _ => False

/-! ## The loop and the renaming -/

/-- The temporary file has lines of other keys only, and the loop comes to its end unless the call stops in it. -/
theorem copyLoop_kept (fault : Option Fault) {key : List Byte} {date : List Byte} {len : Nat}
    (full : ∀ b ∈ key, b ≠ nul) (same : date.take len = key) (whole : key.length = len) (n : Nat) (data : List Byte)
    {lines : List (List Byte)} (clean : ∀ line ∈ lines, ∀ b ∈ line, b ≠ nul) :
    (∃ kept : List (List Byte), kept.Sublist (lines.filter fun line => ¬ key <+: line) ∧
        (copyLoop fault date len n data lines).1 = kept.flatten) ∧
      ((∀ m, fault ≠ some (.stops (.puts m))) → (copyLoop fault date len n data lines).2 = true) := by
  induction lines generalizing n data with
  | nil => exact ⟨⟨[], List.Sublist.refl [], rfl⟩, fun _ => rfl⟩
  | cons line lines ih =>
    obtain ⟨⟨kept, sub, content⟩, ended⟩ := ih (n + 1) (memcpy data (line ++ [nul])) fun l mem =>
      clean l (List.mem_cons_of_mem line mem)
    have begins : (memcpy data (line ++ [nul])).take len = date.take len ↔ key <+: line := by
      rw [same, ← whole]
      exact take_memcpy full
    rw [copyLoop]
    by_cases own : key <+: line
    · rw [if_pos (begins.2 own), List.filter_cons_of_neg (by simpa using own)]
      exact ⟨⟨kept, sub, content⟩, ended⟩
    · rw [if_neg (mt begins.1 own), List.filter_cons_of_pos (by simpa using own)]
      by_cases stopped : fault = some (.stops (.puts n))
      · rw [if_pos stopped]
        exact ⟨⟨[], List.nil_sublist _, rfl⟩, fun none => absurd stopped (none n)⟩
      · rw [if_neg stopped]
        by_cases failed : fault = some (.fails (.puts n))
        · rw [if_pos failed]
          exact ⟨⟨kept, sub.cons line, content⟩, ended⟩
        · rw [if_neg failed]
          refine ⟨⟨line :: kept, sub.cons_cons line, ?_⟩, ended⟩
          rw [cstr_memcpy data (clean line List.mem_cons_self), content, List.flatten_cons]

/-- A file that is still there is not replaced. -/
theorem rename_stays {disk : Disk} {old new file : List Byte} (there : disk new = some file) :
    rename disk old new = disk := by
  rw [rename, there]
  cases disk old <;> rfl

section Delete

variable {disk : Disk} {filename temfilename date key : List Byte} {len : Nat} {lines : List (List Byte)}

/-- The file is gone, or it has lines of other keys only. -/
def Cleared (key : List Byte) (lines : List (List Byte)) (file : Option (List Byte)) : Prop :=
  ∃ kept : List (List Byte), kept.Sublist (lines.filter fun line => ¬ key <+: line) ∧ file.getD [] = kept.flatten

/-- What a fault leaves of `delete_line`. -/
theorem deleteLine_fault (other : filename ≠ temfilename) (full : ∀ b ∈ key, b ≠ nul) (same : date.take len = key)
    (whole : key.length = len) (short : ∀ line ∈ lines, ShortLine line) (there : disk filename = some lines.flatten)
    (fault : Fault) :
    match fault with
    | .fails .openFile | .fails .openTemp | .fails .remove =>
      ∃ left, deleteLine (some fault) disk filename temfilename date len = .ok left ∧ left filename = disk filename
    | .stops .openFile | .stops .openTemp | .stops .remove =>
      ∃ left, deleteLine (some fault) disk filename temfilename date len = .error left ∧ left filename = disk filename
    | .stops (.puts _) =>
      (∃ left, deleteLine (some fault) disk filename temfilename date len = .error left ∧ left filename =
        disk filename) ∨
        ∃ left, deleteLine (some fault) disk filename temfilename date len = .ok left ∧
          Cleared key lines (left filename)
    | .stops .rename =>
      ∃ left, deleteLine (some fault) disk filename temfilename date len = .error left ∧
        Cleared key lines (left filename)
    | _ =>
      ∃ left, deleteLine (some fault) disk filename temfilename date len = .ok left ∧
        Cleared key lines (left filename) := by
  obtain ⟨⟨kept, sub, content⟩, ended⟩ := copyLoop_kept (some fault) full same whole 0 (List.replicate 512 nul)
    (fun line mem => (short line mem).clean)
  have read := readLines_short short (show 100 ≤ 512 by decide)
  have cleared : Cleared key lines (some kept.flatten) := ⟨kept, sub, rfl⟩
  have gone : Cleared key lines none := ⟨[], List.nil_sublist _, rfl⟩
  have replaced := congrFun (@rename_replaces disk temfilename filename other kept.flatten) filename
  rw [Function.update_of_ne other, Function.update_self] at replaced
  have done : ∃ left, (Except.ok (rename (remove (Function.update disk temfilename (some kept.flatten)) filename)
      temfilename filename) : Except Disk Disk) = .ok left ∧ Cleared key lines (left filename) :=
    ⟨_, rfl, by rwa [replaced]⟩
  have copied : Function.update disk temfilename (some kept.flatten) filename = some lines.flatten := by
    rw [Function.update_of_ne other, there]
  have removed : Cleared key lines (remove (Function.update disk temfilename (some kept.flatten)) filename
    filename) := by
    rwa [remove, Function.update_self]
  unfold deleteLine
  rw [there]
  cases fault with
  | fails op =>
    have ended := ended fun m same => by cases same
    cases op <;> simp only [attempt, reduceCtorEq, Option.some.injEq, Fault.fails.injEq, if_false, if_true, ne_eq,
      not_true, not_false_eq_true, decide_true, decide_false, bind, Except.bind, pure, Except.pure, read,
        ended, content]
    case openFile | openTemp => exact ⟨disk, rfl, there⟩
    case remove => exact ⟨_, rfl, by rw [rename_stays copied]; exact copied⟩
    case rename => exact ⟨_, rfl, removed⟩
    all_goals exact done
  | stops op =>
    by_cases inLoop : ∃ m, op = .puts m
    · obtain ⟨m, rfl⟩ := inLoop
      simp only [attempt, reduceCtorEq, Option.some.injEq, Fault.stops.injEq, if_false, if_true, ne_eq,
        not_false_eq_true, decide_true, bind, Except.bind, pure, Except.pure, read, content]
      split_ifs
      · exact .inr done
      · exact .inl ⟨_, rfl, copied⟩
    · have ended := ended fun m same => inLoop ⟨m, by cases same; rfl⟩
      cases op <;> simp only [attempt, reduceCtorEq, Option.some.injEq, Fault.stops.injEq, if_false, if_true, ne_eq,
        not_false_eq_true, decide_true, bind, Except.bind, pure, Except.pure, read, ended, content]
      case openFile | openTemp => exact ⟨disk, rfl, there⟩
      case puts => exact absurd ⟨_, rfl⟩ inLoop
      case remove => exact ⟨_, rfl, copied⟩
      case rename => exact ⟨_, rfl, removed⟩
      all_goals exact done

end Delete

/-- What a fault leaves of the end of the call. -/
theorem append_fault (p : Period) (disk : Disk) (date : List Byte) (energy : ℚ) (fault : Fault) :
    match fault with
    | .fails .openAppend | .stops .openAppend | .fails .write | .stops .write =>
      (afterwards (p.append (some fault) disk date energy) (p.path date)).getD [] = (disk (p.path date)).getD []
    | _ => (afterwards (p.append (some fault) disk date energy) (p.path date)).getD [] =
        (disk (p.path date)).getD [] ++ p.row date energy := by
  unfold Period.append
  cases fault with
  | fails op =>
    cases op <;> simp only [attempt, reduceCtorEq, Option.some.injEq, Fault.fails.injEq, if_false, if_true,
      ne_eq, not_true,
      not_false_eq_true, decide_true, decide_false, Bool.false_eq_true, bind, Except.bind, pure,
        Except.pure, afterwards,
      Function.update_self, Option.getD_some]
  | stops op =>
    cases op <;> simp only [attempt, reduceCtorEq, Option.some.injEq, Fault.stops.injEq, if_false, if_true, ne_eq,
      not_false_eq_true, decide_true, bind, Except.bind, pure, Except.pure, afterwards, Function.update_self,
      Option.getD_some]

/-! ## What is found afterwards -/

section Found

variable {p : Period} {date : List Byte} (isDate : IsDate date) {disk : Disk} {lines : List (List Byte)}

include isDate

theorem search_cleared (short : ∀ line ∈ lines, ShortLine line)
    (cleared : Cleared (date.take p.len) lines (disk (p.path date))) : p.searchEnergy disk date = none := by
  obtain ⟨kept, sub, file⟩ := cleared
  have keptShort : ∀ line ∈ kept, ShortLine line := fun line mem => short line (List.mem_of_mem_filter (sub.subset mem))
  rw [searchEnergy_short isDate keptShort file, List.find?_eq_none.2, Option.map_none]
  intro line mem found
  have other := (List.mem_filter.1 (sub.subset mem)).2
  rw [decide_eq_true_eq, key_prefix p isDate] at other
  exact other (of_decide_eq_true found).2

/-- Behind the lines of a file the new one is found if none of them is. -/
theorem search_appended {energy : ℚ} (fits : p.Fits date energy) (short : ∀ line ∈ lines, ShortLine line)
    (file : (disk (p.path date)).getD [] = lines.flatten) (left : Disk)
    (after : (left (p.path date)).getD [] = (disk (p.path date)).getD [] ++ p.row date energy) :
    p.searchEnergy left date = (p.searchEnergy disk date).or (some (FixedPoint.rounded 6 energy)) := by
  have isRow := row_isRow isDate fits
  have own : (p.row date energy)[p.len]? = some comma ∧ (p.row date energy).take p.len = date.take p.len :=
    ⟨isRow.sep, row_key isDate energy⟩
  have all : ∀ line ∈ lines ++ [p.row date energy], ShortLine line := by
    intro line mem
    rcases List.mem_append.1 mem with old | last
    · exact short line old
    · exact List.mem_singleton.1 last ▸ isRow.short
  have flat : (left (p.path date)).getD [] = (lines ++ [p.row date energy]).flatten := by
    rw [after, file, List.flatten_append, List.flatten_singleton]
  rw [searchEnergy_short isDate all flat, searchEnergy_short isDate short file, List.find?_append,
    List.find?_cons_of_pos (by simpa using own), Option.map_or, Option.map_some, total_row isDate]

end Found

/-! ## The whole call -/

section Call

variable {p : Period} {disk : Disk} {call : Call}

theorem updateEnergy_stopped :
    p.updateEnergy (some (.stops .openSearch)) disk call.currentEnergy call.dateTime = .error disk := rfl

theorem updateEnergy_unread :
    p.updateEnergy (some (.fails .openSearch)) disk call.currentEnergy call.dateTime =
      p.append (some (.fails .openSearch)) disk call.dateTime call.currentEnergy := rfl

variable {fault : Fault} (notStopped : fault ≠ .stops .openSearch)

include notStopped

theorem updateEnergy_notFound (none : p.searchEnergy disk call.dateTime = .none) :
    p.updateEnergy (some fault) disk call.currentEnergy call.dateTime =
      p.append (some fault) disk call.dateTime (p.sum disk call) := by
  unfold Period.updateEnergy Period.sum
  rw [none]
  simp only [attempt, Option.some.injEq, notStopped, if_false, bind, Except.bind, pure, Except.pure, ite_self,
    Option.isSome_none, Bool.false_eq_true]

theorem updateEnergy_found {old : ℚ} (found : p.searchEnergy disk call.dateTime = some old)
    (read : fault ≠ .fails .openSearch) : p.updateEnergy (some fault) disk call.currentEnergy call.dateTime =
      (deleteLine (some fault) disk (p.path call.dateTime) p.temp call.dateTime p.len).bind fun left =>
        p.append (some fault) left call.dateTime (p.sum disk call) := by
  unfold Period.updateEnergy Period.sum
  rw [found]
  simp only [attempt, Option.some.injEq, notStopped, read, if_false, if_true, bind, Except.bind, ne_eq,
    not_false_eq_true,
    decide_true, Option.isSome_some]

end Call

section Whole

variable {p : Period} {disk : Disk} {call : Call} (isDate : IsDate call.dateTime) {lines : List (List Byte)}
  (short : ∀ line ∈ lines, ShortLine line) (file : (disk (p.path call.dateTime)).getD [] = lines.flatten)

theorem Cleared.of_same {key : List Byte} {a b : Option (List Byte)} (cleared : Cleared key lines b)
    (same : a.getD [] = b.getD []) : Cleared key lines a := by
  obtain ⟨kept, sub, content⟩ := cleared
  exact ⟨kept, sub, same.trans content⟩

include isDate short file

/-- Where the row is not written after the old one is gone, the total is gone. -/
theorem lost_absent {old : ℚ} (found : p.searchEnergy disk call.dateTime = some old) {fault : Fault}
    (loses : fault.Loses) :
    p.searchEnergy (afterwards (p.updateEnergy (some fault) disk call.currentEnergy call.dateTime)) call.dateTime =
      none := by
  have there := found_file found file
  have deleted := deleteLine_fault (p.apart call.dateTime) (key_noNul p isDate) rfl (key_length p isDate)
    short there fault
  have ended (left : Disk) := append_fault p left call.dateTime (p.sum disk call) fault
  have notStopped : fault ≠ .stops .openSearch := by
    rintro rfl
    exact loses
  have read : fault ≠ .fails .openSearch := by
    rintro rfl
    exact loses
  apply search_cleared isDate short
  rw [updateEnergy_found notStopped found read]
  unfold Fault.Loses at loses
  split at loses
  · obtain ⟨left, same, cleared⟩ := deleted
    rw [same]
    exact cleared
  iterate 4
    obtain ⟨left, same, cleared⟩ := deleted
    rw [same]
    exact cleared.of_same (ended left)
  exact loses.elim

variable (sumFits : p.Fits call.dateTime (p.sum disk call))

include sumFits

/-- A call that does not find the total does not change it, or puts its own there. -/
theorem notFound_kept (none : p.searchEnergy disk call.dateTime = .none) (fault : Fault) :
    p.searchEnergy (afterwards (p.updateEnergy (some fault) disk call.currentEnergy call.dateTime)) call.dateTime =
        .none ∨
      p.searchEnergy (afterwards (p.updateEnergy (some fault) disk call.currentEnergy call.dateTime)) call.dateTime =
        some (FixedPoint.rounded 6 (p.sum disk call)) := by
  by_cases stopped : fault = .stops .openSearch
  · rw [stopped, updateEnergy_stopped]
    exact .inl none
  · rw [updateEnergy_notFound stopped none]
    have ended := append_fault p disk call.dateTime (p.sum disk call) fault
    have appended := search_appended isDate sumFits short file
      (afterwards (p.append (some fault) disk call.dateTime (p.sum disk call)))
    rw [none, Option.none_or] at appended
    split at ended
    iterate 4
      left
      rw [searchEnergy_short isDate short (ended.trans file), ← searchEnergy_short isDate short file, none]
    exact .inr (appended ended)

/-- Where the old one is not gone, or the row is written, there is a total. -/
theorem found_kept (fits : p.Fits call.dateTime call.currentEnergy) {old : ℚ}
    (found : p.searchEnergy disk call.dateTime = some old) {fault : Fault} (kept : ¬ fault.Loses) :
    p.searchEnergy (afterwards (p.updateEnergy (some fault) disk call.currentEnergy call.dateTime)) call.dateTime =
        some old ∨
      p.searchEnergy (afterwards (p.updateEnergy (some fault) disk call.currentEnergy call.dateTime)) call.dateTime =
        some (FixedPoint.rounded 6 (p.sum disk call)) := by
  have there := found_file found file
  have same {left : Disk} (unchanged : left (p.path call.dateTime) = disk (p.path call.dateTime)) :
      p.searchEnergy left call.dateTime = some old := by
    rw [← found, Period.searchEnergy, Period.searchEnergy, unchanged]
  -- What is put behind the old one is not found.
  have behind {left after : Disk} {energy : ℚ} (energyFits : p.Fits call.dateTime energy)
      (unchanged : left (p.path call.dateTime) = disk (p.path call.dateTime))
      (ended : (after (p.path call.dateTime)).getD [] =
        (left (p.path call.dateTime)).getD [] ++ p.row call.dateTime energy) :
      p.searchEnergy after call.dateTime = some old := by
    rw [search_appended isDate energyFits short file after (unchanged ▸ ended), found, Option.some_or]
  have alone {left after : Disk} (cleared : Cleared (call.dateTime.take p.len) lines (left (p.path call.dateTime)))
      (ended : (after (p.path call.dateTime)).getD [] =
        (left (p.path call.dateTime)).getD [] ++ p.row call.dateTime (p.sum disk call)) :
      p.searchEnergy after call.dateTime = some (FixedPoint.rounded 6 (p.sum disk call)) := by
    have none := search_cleared isDate short cleared
    obtain ⟨left, sub, content⟩ := cleared
    have leftShort : ∀ line ∈ left, ShortLine line := fun line mem =>
      short line (List.mem_of_mem_filter (sub.subset mem))
    rw [search_appended isDate sumFits leftShort content after ended, none, Option.none_or]
  have deleted := deleteLine_fault (p.apart call.dateTime) (key_noNul p isDate) rfl (key_length p isDate)
    short there fault
  have ended (left : Disk) := append_fault p left call.dateTime (p.sum disk call) fault
  by_cases stopped : fault = .stops .openSearch
  · rw [stopped, updateEnergy_stopped]
    exact .inl found
  by_cases unread : fault = .fails .openSearch
  · subst unread
    rw [updateEnergy_unread]
    exact .inl (behind fits rfl (append_fault p disk call.dateTime call.currentEnergy (.fails .openSearch)))
  rw [updateEnergy_found stopped found unread]
  split at deleted
  iterate 3
    obtain ⟨left, result, unchanged⟩ := deleted
    rw [result]
    exact .inl (behind sumFits unchanged (ended left))
  iterate 3
    obtain ⟨left, result, unchanged⟩ := deleted
    rw [result]
    exact .inl (same unchanged)
  · rcases deleted with ⟨left, result, unchanged⟩ | ⟨left, result, cleared⟩
    · rw [result]
      exact .inl (same unchanged)
    · rw [result]
      exact .inr (alone cleared (ended left))
  · exact absurd trivial kept
  · obtain ⟨left, result, cleared⟩ := deleted
    rw [result]
    right
    apply alone cleared
    have ended := ended left
    split at ended
    iterate 4 exact absurd trivial kept
    exact ended

end Whole

/-- **Failures**: whatever is in the file, after a call in which one operation fails, or which stops before one, the
total is the old one or the new one, if and only if there was none or the row is written where the old one is gone. -/
theorem failure_atomic_iff {p : Period} {disk : Disk} {call : Call} (isDate : IsDate call.dateTime)
    (made : Lines.MadeOf ShortLine ((disk (p.path call.dateTime)).getD []))
    (fits : p.Fits call.dateTime call.currentEnergy) (sumFits : p.Fits call.dateTime (p.sum disk call))
      (fault : Fault) :
    (p.searchEnergy (afterwards (p.updateEnergy (some fault) disk call.currentEnergy call.dateTime)) call.dateTime =
          p.searchEnergy disk call.dateTime ∨
        p.searchEnergy (afterwards (p.updateEnergy (some fault) disk call.currentEnergy call.dateTime)) call.dateTime =
          some (FixedPoint.rounded 6 (p.sum disk call))) ↔
      p.searchEnergy disk call.dateTime = none ∨ ¬ fault.Loses := by
  obtain ⟨lines, file, short⟩ := made
  cases found : p.searchEnergy disk call.dateTime with
  | none => exact iff_of_true (notFound_kept isDate short file sumFits found fault) (.inl rfl)
  | some old =>
    by_cases loses : fault.Loses
    · rw [lost_absent isDate short file found loses]
      refine iff_of_false ?_ ?_
      · rintro (same | same)
        · cases same
        · cases same
      · rintro (none | kept)
        · cases none
        · exact kept loses
    · exact iff_of_true (found_kept isDate short file sumFits fits found loses) (.inr loses)

/-! A month whose day has a total, and the file cannot be opened at the end. -/

def sampleCall : Call :=
  ⟨1 / 4, str "20170718120000"⟩

/-- After a first call. -/
def sampleDisk : Disk :=
  daily.run (fun _ => none) [sampleCall]

theorem sampleCall_small : ∀ call ∈ [sampleCall],
    IsDate call.dateTime ∧ 0 ≤ call.currentEnergy ∧ call.currentEnergy ≤ (1 : Nat) := by
  intro call mem
  obtain rfl := List.mem_singleton.1 mem
  exact ⟨isDate_sample, by norm_num [sampleCall], by norm_num [sampleCall]⟩

theorem sampleDisk_spec : daily.Keeps sampleDisk ∧
    daily.searchEnergy sampleDisk sampleCall.dateTime = some (FixedPoint.rounded 6 (1 / 4)) := by
  have fits := runFits_of_small (p := daily) keeps_nothing (k := 0) (fun _ _ _ found => by cases found) sampleCall_small
    (by decide)
  have run := run_totals keeps_nothing (fun call mem => (sampleCall_small call mem).1) fits isDate_sample
  have own : daily.callsOf [sampleCall] (str "20170718120000") = [sampleCall] := by
    have key : sampleCall.dateTime.take daily.len = (str "20170718120000").take daily.len := rfl
    rw [callsOf_cons, if_pos key]
    rfl
  rw [own] at run
  exact ⟨run.1, run.2.1⟩

theorem sampleCall_fits : daily.Fits sampleCall.dateTime sampleCall.currentEnergy ∧
    daily.Fits sampleCall.dateTime (daily.sum sampleDisk sampleCall) := by
  have low : (0 : ℚ) ≤ 1 / 4 := by norm_num
  have high : (1 / 4 : ℚ) ≤ (1 : Int) := by norm_num
  have old : 0 ≤ FixedPoint.rounded 6 (1 / 4) ∧ FixedPoint.rounded 6 (1 / 4) ≤ (1 : Int) :=
    ⟨FixedPoint.rounded_nonneg 6 low, FixedPoint.rounded_le 6 high⟩
  have sum : daily.sum sampleDisk sampleCall = 1 / 4 + FixedPoint.rounded 6 (1 / 4) := by
    rw [Period.sum, sampleDisk_spec.2]
    rfl
  rw [sum]
  push_cast at old
  exact ⟨fits_of_small isDate_sample (k := 1) low (by norm_num [sampleCall]) (by decide),
    fits_of_small isDate_sample (k := 2) (by linarith) (by push_cast; linarith) (by decide)⟩

theorem failure_atomic_sample :
    (daily.searchEnergy (afterwards (daily.updateEnergy (some (.fails .rename)) sampleDisk sampleCall.currentEnergy
            sampleCall.dateTime)) sampleCall.dateTime = daily.searchEnergy sampleDisk sampleCall.dateTime ∨
        daily.searchEnergy (afterwards (daily.updateEnergy (some (.fails .rename)) sampleDisk sampleCall.currentEnergy
            sampleCall.dateTime)) sampleCall.dateTime = some (FixedPoint.rounded 6 (daily.sum sampleDisk sampleCall))) ↔
      daily.searchEnergy sampleDisk sampleCall.dateTime = none ∨ ¬ (Fault.fails .rename).Loses :=
  failure_atomic_iff isDate_sample
    ((sampleDisk_spec.1 _ isDate_sample).rows.mono fun _ isRow => isRow.short) sampleCall_fits.1 sampleCall_fits.2 _

theorem total_lost :
    daily.searchEnergy sampleDisk sampleCall.dateTime ≠ none ∧
      daily.searchEnergy (afterwards (daily.updateEnergy (some (.fails .openAppend)) sampleDisk sampleCall.currentEnergy
        sampleCall.dateTime)) sampleCall.dateTime = none := by
  obtain ⟨keeps, found⟩ := sampleDisk_spec
  obtain ⟨lines, file, rows⟩ := (keeps _ isDate_sample).rows
  refine ⟨by rw [found]; exact Option.some_ne_none _, ?_⟩
  exact lost_absent isDate_sample (fun line mem => (rows line mem).short) file found trivial

end Ecu.Totals
