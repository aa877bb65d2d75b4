import Ecu.Lib.Talk
import Ecu.Update.Firmware

/-!
# Updating one inverter (`remote_update_single`)

The inverter is told to start with its new program after the missing packages were sent again. That step counts as done
too where the file to read them from is not opened.
-/

namespace Ecu.Update

open Poll Talks Talk

abbrev Frame := List Byte

/-- What `zb_get_reply` gives: the frame, or `none` for -1. -/
abbrev Reply := Option (List Byte)

/-! ## The commands -/

/-- A command without data. -/
def commandFrame (command second : Byte) : Frame :=
  [0xFC, 0xFC, command, second] ++ List.replicate 68 nul ++ [0xFE, 0xFE]

/-- The answer to a command. -/
def Answer (command : Nat) (data : List Byte) : Prop :=
  data.length % 8 = 0 ∧ byteAt data 3 = command ∧ byteAt data 0 = 0xFB ∧ byteAt data 1 = 0xFB ∧ byteAt data 6 = 0xFE ∧
    byteAt data 7 = 0xFE

instance (command : Nat) (data : List Byte) : Decidable (Answer command data) :=
  inferInstanceAs (Decidable (_ ∧ _))

/-- The reply is the answer to the command. -/
def answered (command : Nat) (reply : Reply) : Option Unit :=
  (reply.filter (Answer command ·)).map fun _ => ()

/-- `Sendupdatepackage_start` -/
def sendupdatepackageStart : Talk Frame Reply Int := do
  match ← retry (commandFrame 0x01 0x80) (answered 0x18) 10 with
  | some () => return 1
  | none => return -1

/-- `Update_success_end` -/
def updateSuccessEnd : Talk Frame Reply Int := do
  match ← retry (commandFrame 0x03 0xC0) (answered 0x3C) 3 with
  | some () => return 1
  | none => return -1

/-- The answer of eight bytes: done, or failed. -/
def outcome (done failed : Nat) (reply : Reply) : Option Int :=
  reply.bind fun data =>
    if data.length = 8 ∧ Answer done data then some 1
    else if data.length = 8 ∧ Answer failed data then some (-1)
    else none

/-- The command that starts the new program. -/
def updateFrame : Frame :=
  commandFrame 0x05 0xA0

/-- `Update_start` -/
def updateStart : Talk Frame Reply Int := do
  return (← retry updateFrame (outcome 0x05 0xE5) 3).getD 0

/-- `Restore` -/
def restore : Talk Frame Reply Int := do
  return (← retry (commandFrame 0x06 0x60) (outcome 0x06 0xE6) 3).getD 0

/-! ## The update -/

/-- The loop that starts the new program. -/
def updateStarts : Nat → Int → Talk Frame Reply Int
  | 0, ret => return ret
  | n + 1, _ => do
    let ret ← updateStart
    if ret = 1 then return ret else updateStarts n ret

/-- The part of `remote_update_single` after the missing packages were sent again. -/
def startUpdated : Talk Frame Reply Int := do
  let ret ← updateStarts 10 0
  if ret = 1 then
    let _ ← updateSuccessEnd
    return 0
  else if ret = -1 then
    let _ ← restore
    let _ ← updateSuccessEnd
    return 6
  else if ret = 0 then return 7
  else return 1

/-- The part of `remote_update_single` after the first pass. -/
def complementThenStart (second : String → Option (List Byte)) (model : Nat) : Talk Frame Reply Int := do
  let ret ← script (complementupdatepackageSingle second model 0)
  if ret = -1 then
    let _ ← restore
    let _ ← updateSuccessEnd
    return 4
  else if ret = 1 then startUpdated
  else if ret = 0 then return 5
  else return 1

/-- The part of `remote_update_single` after the command that begins the first pass. -/
def firstPassThen (first second : String → Option (List Byte)) (packageBuff : List Byte) (model : Nat) (ret : Int) :
    Talk Frame Reply Int := do
  if ret = 1 then
    tell (sendupdatepackageSingle first packageBuff model).2
    let ret := (sendupdatepackageSingle first packageBuff model).1
    if ret = -1 then return 2
    else if ret = -2 then
      let _ ← restore
      let _ ← updateSuccessEnd
      return 3
    else if ret = 1 then complementThenStart second model
    else return 1
  else return 1

/-- `remote_update_single`. The two functions are what the files are when they are opened for the first pass and for the
missing packages. -/
def remoteUpdateSingle (first second : String → Option (List Byte)) (packageBuff : List Byte) (model : Nat) :
    Talk Frame Reply Int := do
  let _ ← updateSuccessEnd
  firstPassThen first second packageBuff model (← sendupdatepackageStart)

/-! ## No packet is missing -/

/-- The inverter reports that no packet is missing. -/
def Complete (data : List Byte) : Prop :=
  (Report 0x42 data ∨ Report 0x24 data) ∧ missing data = 0

/-- The command to start is sent only after such a report. -/
def StartsComplete (events : List (Event Frame Reply)) : Prop :=
  Precedes (fun event => ∃ data, event = .received (some data) ∧ Complete data) (· = .sent updateFrame) events

/-- The reply to the request for a report: the first one of twelve bytes. -/
def reported (reply : Reply) : Option (List Byte) :=
  reply.filter (·.length = 12)

/-- A run in which the inverter reports missing packages while their file is not opened. -/
structure Unopened (first second : String → Option (List Byte)) (model : Nat) (replies : List Reply) : Prop where
  sent : ((firmware model).bind first).isSome
  unopened : (complementFirmware model).bind second = none
  lacks : ∃ ending starting asking rest ended report, replies = ending ++ (starting ++ (asking ++ rest)) ∧
    Heard (answered 0x3C) 3 ending ended ∧ Heard (answered 0x18) 10 starting (some ()) ∧
    Heard reported 5 asking (some report) ∧ Report 0x42 report ∧ missing report ≠ 0 ∧
    ∀ data, some data ∈ ending ++ starting → ¬ Complete data

/-! ## The command to start -/

theorem commandFrame_ne {command second : Byte} (other : command ≠ 0x05) :
    ¬ commandFrame command second = updateFrame := by
  intro same
  exact other (Option.some.inj (congrArg (·[2]?) same))

theorem packageFrame_ne (command high low : Byte) (packageBuff : List Byte) :
    ¬ packageFrame command high low packageBuff = updateFrame := by
  intro same
  have differs : (0x02 : Byte) = 0x05 := Option.some.inj (congrArg (·[2]?) same)
  exact absurd differs (by decide)

theorem updateSuccessEnd_never : Never (· = updateFrame) updateSuccessEnd := by
  refine .bind (.retry (commandFrame_ne (by decide))) fun out => ?_
  cases out with
  | none => exact .pure (-1)
  | some _ => exact .pure 1

theorem sendupdatepackageStart_never : Never (· = updateFrame) sendupdatepackageStart := by
  refine .bind (.retry (commandFrame_ne (by decide))) fun out => ?_
  cases out with
  | none => exact .pure (-1)
  | some _ => exact .pure 1

theorem restore_never : Never (· = updateFrame) restore :=
  .bind (.retry (commandFrame_ne (by decide))) fun out => .pure (out.getD 0)

theorem sendPackages_ne {fuel num : Nat} {packageBuff file : List Byte} :
    ∀ frame ∈ sendPackages fuel num packageBuff file, ¬ frame = updateFrame := by
  induction fuel generalizing num packageBuff file with
  | zero => exact fun _ mem => absurd mem List.not_mem_nil
  | succ fuel ih =>
    intro frame mem
    rw [sendPackages] at mem
    split_ifs at mem
    · exact absurd mem List.not_mem_nil
    · rcases List.mem_cons.1 mem with rfl | later
      · exact packageFrame_ne _ _ _ _
      · exact ih frame later

theorem sendupdatepackage_ne {first : String → Option (List Byte)} {packageBuff : List Byte} {model : Nat} :
    ∀ frame ∈ (sendupdatepackageSingle first packageBuff model).2, ¬ frame = updateFrame := by
  intro frame mem
  rw [sendupdatepackageSingle] at mem
  cases known : firmware model with
  | none =>
    rw [known] at mem
    exact absurd mem List.not_mem_nil
  | some name =>
    rw [known] at mem
    dsimp only at mem
    cases opened : first name with
    | none =>
      rw [opened] at mem
      exact absurd mem List.not_mem_nil
    | some file =>
      rw [opened] at mem
      exact sendPackages_ne frame mem

theorem complement_never (second : String → Option (List Byte)) (model : Nat) :
    Never (· = updateFrame) (script (complementupdatepackageSingle second model 0)) := by
  refine .script fun replies frame mem => ?_
  have request : ¬ commandFrame 0x04 0x20 = updateFrame := commandFrame_ne (by decide)
  rcases complementupdatepackage_frames frame mem with rfl | ⟨file, data, -, -, rfl⟩
  · exact request
  · exact packageFrame_ne _ _ _ _

theorem startUpdated_begins : Begins updateFrame startUpdated :=
  (((Begins.retry updateFrame (outcome 0x05 0xE5) 2).bind _).bind _).bind _

/-! ## The missing packages -/

theorem not_complete_none {reply : Reply} (refused : reported reply = none) {data : List Byte}
    (own : reply = some data) :
    ¬ Complete data := by
  rintro ⟨report, -⟩
  have full : data.length = 12 := report.elim (·.1) (·.1)
  rw [reported, own, Option.filter_some, if_pos (decide_eq_true full)] at refused
  cases refused

/-- The loops are left with success at a report that nothing is missing. -/
theorem complementLoop_one {file : List Byte} {replies : List Reply} {data : List Byte} {i : Nat}
    (one : (complementLoop file data i replies).2 = some 1) :
    ∃ last, some last ∈ replies.take (complementLoop file data i replies).1.length ∧ Complete last := by
  induction replies generalizing data i with
  | nil => cases one
  | cons reply replies ih =>
    rw [complementLoop] at one ⊢
    dsimp only at one ⊢
    rw [List.length_cons, List.take_succ_cons]
    cases acknowledged : reply.filter (Report 0x24 ·) with
    | none =>
      rw [acknowledged] at one
      dsimp only at one ⊢
      split_ifs at one ⊢ with given
      · cases one
      · obtain ⟨last, mem, complete⟩ := ih one
        exact ⟨last, List.mem_cons_of_mem reply mem, complete⟩
    | some next =>
      obtain ⟨own, report⟩ := Option.filter_eq_some_iff.1 acknowledged
      rw [acknowledged] at one
      dsimp only at one ⊢
      split_ifs at one ⊢ with done
      · exact ⟨next, own ▸ List.mem_cons_self, .inr (of_decide_eq_true report), done⟩
      · obtain ⟨last, mem, complete⟩ := ih one
        exact ⟨last, List.mem_cons_of_mem reply mem, complete⟩

/-- The step is done at such a report, or where the file is not opened. -/
theorem complement_one {second : String → Option (List Byte)} {model i : Nat} (few : i < 5) {replies : List Reply}
    (one : (complementupdatepackageSingle second model i replies).2 = some 1) :
    (∃ last, some last ∈ replies.take (complementupdatepackageSingle second model i replies).1.length ∧ Complete last) ∨
      (complementFirmware model).bind second = none ∧ ∃ asking rest report, replies = asking ++ rest ∧
        Heard reported (5 - i) asking (some report) ∧ Report 0x42 report ∧ missing report ≠ 0 := by
  induction replies generalizing i with
  | nil => cases one
  | cons reply replies ih =>
    obtain ⟨tries, left⟩ : ∃ tries, 5 - i = tries + 1 := ⟨5 - i - 1, by omega⟩
    rw [complementupdatepackageSingle] at one ⊢
    dsimp only at one ⊢
    rw [List.length_cons, List.take_succ_cons]
    split_ifs at one ⊢ with again
    · have next : 5 - (i + 1) = tries := by omega
      rcases ih again.2 one with ⟨last, mem, complete⟩ | ⟨unopened, asking, rest, report, rfl, hears, kind, lacks⟩
      · exact .inl ⟨last, List.mem_cons_of_mem reply mem, complete⟩
      · have refused : reported reply = none := by
          rw [reported, Option.filter_eq_none_iff]
          rintro data rfl full
          exact again.1 (congrArg some (of_decide_eq_true full))
        refine .inr ⟨unopened, reply :: asking, rest, report, rfl, ?_, kind, lacks⟩
        rw [left]
        exact .later refused (next ▸ hears)
    · rw [complementAfter] at one ⊢
      cases seen : reply.filter (Report 0x42 ·) with
      | none =>
        rw [seen] at one
        dsimp only at one
        split_ifs at one <;> cases one
      | some data =>
        obtain ⟨own, kind⟩ := Option.filter_eq_some_iff.1 seen
        have report : Report 0x42 data := of_decide_eq_true kind
        rw [seen] at one
        dsimp only at one ⊢
        by_cases lacks : missing data = 0
        · exact .inl ⟨data, own ▸ List.mem_cons_self, .inl report, lacks⟩
        · cases opened : (complementFirmware model).bind second with
          | none =>
            refine .inr ⟨rfl, [reply], replies, data, rfl, ?_, report, lacks⟩
            rw [left]
            refine .now ?_
            rw [reported, own, Option.filter_some, if_pos (decide_eq_true report.1)]
          | some file =>
            rw [opened] at one
            dsimp only at one ⊢
            rw [if_neg lacks] at one ⊢
            obtain ⟨last, mem, complete⟩ := complementLoop_one one
            exact .inl ⟨last, List.mem_cons_of_mem reply mem, complete⟩

/-- Where the file is not opened, the step is done at once. -/
theorem complement_unopened {second : String → Option (List Byte)} {model i : Nat}
    (unopened : (complementFirmware model).bind second = none) {asking : List Reply} {out : Option (List Byte)}
    (hears : Heard reported (5 - i) asking out) {report : List Byte} (accepted : out = some report)
    (kind : Report 0x42 report) (rest : List Reply) :
    complementupdatepackageSingle second model i (asking ++ rest) =
      (List.replicate asking.length checkFrame, some 1) := by
  generalize left : 5 - i = n at hears
  induction hears generalizing i with
  | never => cases accepted
  | @now n reply a judged =>
    obtain rfl := Option.some.inj accepted
    obtain ⟨own, full⟩ := Option.filter_eq_some_iff.1 judged
    have length : reply.map List.length = some 12 := by rw [own, Option.map_some, kind.1]
    rw [List.singleton_append, complementupdatepackageSingle, if_neg fun again => again.1 length, complementAfter, own,
      Option.filter_some, if_pos (decide_eq_true kind)]
    dsimp only
    rw [unopened]
    rfl
  | @later n reply heard out refused next ih =>
    have more : 0 < n := by
      cases next with
      | never => cases accepted
      | now => omega
      | later => omega
    have short : reply.map List.length ≠ some 12 := by
      intro full
      obtain ⟨data, rfl, length⟩ := Option.map_eq_some_iff.1 full
      rw [reported, Option.filter_some, if_pos (decide_eq_true length)] at refused
      cases refused
    rw [List.cons_append, complementupdatepackageSingle, if_pos ⟨short, by omega⟩, ih accepted (by omega)]
    rfl

/-! ## The run -/

theorem updateSuccessEnd_run {ending : List Reply} {ended : Option Unit} (hears : Heard (answered 0x3C) 3 ending ended)
    (rest : List Reply) :
    ∃ ret, updateSuccessEnd.run (ending ++ rest) = (repeated (commandFrame 0x03 0xC0) ending, some (ret, rest)) := by
  rw [updateSuccessEnd, run_bind_some (run_retry hears rest)]
  cases ended with
  | none => exact ⟨-1, by rw [run_pure, List.append_nil]⟩
  | some _ => exact ⟨1, by rw [run_pure, List.append_nil]⟩

theorem updateSuccessEnd_heard {replies rest : List Reply} {events : List (Event Frame Reply)} {ret : Int}
    (ends : updateSuccessEnd.run replies = (events, some (ret, rest))) :
    ∃ ending ended, replies = ending ++ rest ∧ Heard (answered 0x3C) 3 ending ended := by
  obtain ⟨before, ended, middle, later, now, last, -⟩ := run_bind_ends ends
  obtain ⟨ending, rfl, hears, -⟩ := heard_of_run now
  cases ended with
  | none =>
    cases last
    exact ⟨ending, none, rfl, hears⟩
  | some _ =>
    cases last
    exact ⟨ending, some (), rfl, hears⟩

theorem sendupdatepackageStart_run {starting : List Reply} (hears : Heard (answered 0x18) 10 starting (some ()))
    (rest : List Reply) :
    sendupdatepackageStart.run (starting ++ rest) = (repeated (commandFrame 0x01 0x80) starting, some (1, rest)) := by
  rw [sendupdatepackageStart, run_bind_some (run_retry hears rest)]
  dsimp only
  rw [run_pure, List.append_nil]

theorem sendupdatepackageStart_heard {replies rest : List Reply} {events : List (Event Frame Reply)}
    (ends : sendupdatepackageStart.run replies = (events, some (1, rest))) :
    ∃ starting, replies = starting ++ rest ∧ Heard (answered 0x18) 10 starting (some ()) := by
  obtain ⟨before, started, middle, later, now, last, -⟩ := run_bind_ends ends
  obtain ⟨starting, rfl, hears, -⟩ := heard_of_run now
  cases started with
  | none => cases last
  | some _ =>
    cases last
    exact ⟨starting, rfl, hears⟩

section Run

variable {first second : String → Option (List Byte)} {packageBuff : List Byte} {model : Nat}

theorem sendupdatepackage_one (opened : ((firmware model).bind first).isSome) :
    (sendupdatepackageSingle first packageBuff model).1 = 1 := by
  obtain ⟨file, there⟩ := Option.isSome_iff_exists.1 opened
  obtain ⟨name, known, content⟩ := Option.bind_eq_some_iff.1 there
  rw [sendupdatepackageSingle, known]
  dsimp only
  rw [content]

theorem sendupdatepackage_other (unopened : ¬ ((firmware model).bind first).isSome) :
    (sendupdatepackageSingle first packageBuff model).1 ≠ 1 := by
  rw [sendupdatepackageSingle]
  cases known : firmware model with
  | none => exact (by decide : (-1 : Int) ≠ 1)
  | some name =>
    dsimp only
    cases content : first name with
    | none => exact (by decide : (-2 : Int) ≠ 1)
    | some file =>
      rw [known, Option.bind_some, content] at unopened
      exact absurd rfl unopened

/-- Where the missing packages were not sent again, the command is not sent. -/
theorem complementThenStart_other {replies : List Reply}
    (other : (complementupdatepackageSingle second model 0 replies).2 ≠ some 1) :
    ∀ event ∈ ((complementThenStart second model).run replies).1, ¬ event = .sent updateFrame := by
  rintro event mem rfl
  rcases run_bind_cases (script (complementupdatepackageSingle second model 0)) _ replies with
    ⟨events, waits, whole⟩ | ⟨events, ret, rest, ends, whole⟩
  · rw [complementThenStart, whole] at mem
    exact complement_never second model replies updateFrame (by rwa [waits]) rfl
  · have result : (complementupdatepackageSingle second model 0 replies).2 = some ret := by
      obtain ⟨r, same, pair⟩ := Option.map_eq_some_iff.1 (congrArg Prod.snd ends)
      rw [same, (Prod.mk.inj pair).1]
    rw [result] at other
    rw [complementThenStart, whole] at mem
    rcases List.mem_append.1 mem with inside | inside
    · exact complement_never second model replies updateFrame (by rwa [ends]) rfl
    · have restored (n : Int) : Never (· = updateFrame) (do
          let _ ← restore
          let _ ← updateSuccessEnd
          return n) :=
        .bind restore_never fun _ => .bind updateSuccessEnd_never fun _ => .pure n
      split_ifs at inside with failed one silent
      · exact restored 4 rest updateFrame inside rfl
      · exact other (congrArg some one)
      · exact Never.pure 5 rest updateFrame inside rfl
      · exact Never.pure 1 rest updateFrame inside rfl

/-- Else it is sent next. -/
theorem complementThenStart_one {replies : List Reply}
    (one : (complementupdatepackageSingle second model 0 replies).2 = some 1) :
    ∃ later, ((complementThenStart second model).run replies).1 =
      exchanges (complementupdatepackageSingle second model 0 replies).1 replies ++ .sent updateFrame :: later := by
  have ends : (script (complementupdatepackageSingle second model 0)).run replies =
      (exchanges (complementupdatepackageSingle second model 0 replies).1 replies,
        some (1, replies.drop (complementupdatepackageSingle second model 0 replies).1.length)) := by
    rw [script]
    dsimp only
    rw [one, Option.map_some]
  obtain ⟨later, begins⟩ :=
    startUpdated_begins (replies.drop (complementupdatepackageSingle second model 0 replies).1.length)
  refine ⟨later, ?_⟩
  rw [complementThenStart, run_bind_some ends, if_neg (by decide), if_pos rfl, begins]

/-- The events before the missing packages are asked for. -/
def firstPass (first : String → Option (List Byte)) (packageBuff : List Byte) (model : Nat)
    (ending starting : List Reply) :
    List (Event Frame Reply) :=
  repeated (commandFrame 0x03 0xC0) ending ++ (repeated (commandFrame 0x01 0x80) starting ++
    (sendupdatepackageSingle first packageBuff model).2.map .sent)

theorem remoteUpdateSingle_run {ending starting : List Reply} {ended : Option Unit}
    (ends : Heard (answered 0x3C) 3 ending ended) (starts : Heard (answered 0x18) 10 starting (some ()))
    (opened : ((firmware model).bind first).isSome) (rest : List Reply) :
    ((remoteUpdateSingle first second packageBuff model).run (ending ++ (starting ++ rest))).1 =
      firstPass first packageBuff model ending starting ++ ((complementThenStart second model).run rest).1 := by
  obtain ⟨ret, ended⟩ := updateSuccessEnd_run ends (starting ++ rest)
  rw [remoteUpdateSingle, run_bind_some ended, run_bind_some (sendupdatepackageStart_run starts rest), firstPassThen,
    if_pos rfl, run_bind_some (by rfl), sendupdatepackage_one opened]
  dsimp only
  rw [if_neg (by decide), if_neg (by decide), if_pos rfl, firstPass, List.append_assoc, List.append_assoc]

theorem firstPassThen_never {ret : Int} (other : ret = 1 → ¬ ((firmware model).bind first).isSome) :
    Never (· = updateFrame) (firstPassThen first second packageBuff model ret) := by
  rw [firstPassThen]
  split_ifs with one
  · refine .bind (.tell sendupdatepackage_ne) fun _ => ?_
    have failed : (sendupdatepackageSingle first packageBuff model).1 ≠ 1 := sendupdatepackage_other (other one)
    dsimp only
    split_ifs
    · exact .pure 2
    · exact .bind restore_never fun _ => .bind updateSuccessEnd_never fun _ => .pure 3
    · exact .pure 1
  · exact .pure 1

/-- A run that does not send the command, or one that goes so far. -/
theorem remoteUpdateSingle_cases (first second : String → Option (List Byte)) (packageBuff : List Byte) (model : Nat)
    (replies : List Reply) :
    (∀ event ∈ ((remoteUpdateSingle first second packageBuff model).run replies).1, ¬ event = .sent updateFrame) ∨
      ((firmware model).bind first).isSome ∧ ∃ ending starting rest ended, replies = ending ++ (starting ++ rest) ∧
        Heard (answered 0x3C) 3 ending ended ∧ Heard (answered 0x18) 10 starting (some ()) := by
  have whole : remoteUpdateSingle first second packageBuff model =
      updateSuccessEnd >>= fun _ => sendupdatepackageStart >>= firstPassThen first second packageBuff model := rfl
  rw [whole]
  rcases run_bind_cases updateSuccessEnd (fun _ => sendupdatepackageStart >>=
    firstPassThen first second packageBuff model)
    replies with ⟨events, waits, run⟩ | ⟨events, _, middle, ends, run⟩
  · refine .inl ?_
    rintro event mem rfl
    rw [run] at mem
    exact updateSuccessEnd_never replies updateFrame (by rwa [waits]) rfl
  · obtain ⟨ending, ended, rfl, endHears⟩ := updateSuccessEnd_heard ends
    by_cases far : ∃ starts rest, sendupdatepackageStart.run middle = (starts, some (1, rest)) ∧
        ((firmware model).bind first).isSome
    · obtain ⟨starts, rest, begun, opened⟩ := far
      obtain ⟨starting, rfl, startHears⟩ := sendupdatepackageStart_heard begun
      exact .inr ⟨opened, ending, starting, rest, ended, rfl, endHears, startHears⟩
    · refine .inl ?_
      rintro event mem rfl
      rw [run] at mem
      rcases List.mem_append.1 mem with inside | inside
      · exact updateSuccessEnd_never (ending ++ middle) updateFrame (by rwa [ends]) rfl
      · rcases run_bind_cases sendupdatepackageStart (firstPassThen first second packageBuff model) middle with
          ⟨starts, waits, later⟩ | ⟨starts, ret, rest, begun, later⟩
        · rw [later] at inside
          exact sendupdatepackageStart_never middle updateFrame (by rwa [waits]) rfl
        · rw [later] at inside
          rcases List.mem_append.1 inside with now | after
          · exact sendupdatepackageStart_never middle updateFrame (by rwa [begun]) rfl
          · refine firstPassThen_never (fun one opened => far ?_) rest updateFrame after rfl
            exact ⟨starts, rest, one ▸ begun, opened⟩

/-- The events of the first pass hold no command to start, and what is received there was heard. -/
theorem firstPass_none {ending starting : List Reply} :
    ∀ event ∈ firstPass first packageBuff model ending starting, ¬ event = .sent updateFrame := by
  rintro event mem rfl
  rcases List.mem_append.1 mem with ends | later
  · exact commandFrame_ne (by decide) (mem_repeated_sent ends).symm
  · rcases List.mem_append.1 later with starts | packages
    · exact commandFrame_ne (by decide) (mem_repeated_sent starts).symm
    · obtain ⟨frame, sent, same⟩ := List.mem_map.1 packages
      exact sendupdatepackage_ne frame sent (Event.sent.inj same)

theorem mem_firstPass_received {ending starting : List Reply} {reply : Reply} :
    .received reply ∈ firstPass first packageBuff model ending starting ↔ reply ∈ ending ++ starting := by
  simp [firstPass, mem_repeated_received]

theorem not_complete_report {report : List Byte} (lacks : missing report ≠ 0) {asking : List Reply} {n : Nat}
    (hears : Heard reported n asking (some report)) {data : List Byte} (mem : some data ∈ asking) :
      ¬ Complete data := by
  rcases hears.mem mem with refused | accepted
  · exact not_complete_none refused rfl
  · intro complete
    obtain ⟨same, -⟩ := Option.filter_eq_some_iff.1 accepted
    exact lacks (Option.some.inj same ▸ complete.2)

/-- In such a run the command follows no report that is complete. -/
theorem Unopened.starts {replies : List Reply} (run : Unopened first second model replies) (packageBuff : List Byte) :
    ¬ StartsComplete ((remoteUpdateSingle first second packageBuff model).run replies).1 := by
  obtain ⟨sent, unopened, ending, starting, asking, rest, ended, report, rfl, ends, starts, asks, kind, lacks,
    silent⟩ := run
  have asked := complement_unopened (i := 0) unopened asks rfl kind rest
  obtain ⟨later, begins⟩ := complementThenStart_one (congrArg Prod.snd asked)
  rw [asked] at begins
  rw [remoteUpdateSingle_run ends starts sent (asking ++ rest), begins, ← List.append_assoc]
  have none : ∀ event ∈ firstPass first packageBuff model ending starting ++
      exchanges (List.replicate asking.length checkFrame) (asking ++ rest),
      ¬ ∃ data, event = .received (some data) ∧ Complete data := by
    rintro event mem ⟨data, rfl, complete⟩
    rcases List.mem_append.1 mem with early | inside
    · exact silent data (mem_firstPass_received.1 early) complete
    · have heard := mem_exchanges_received.1 inside
      rw [List.length_replicate, List.take_left' rfl] at heard
      exact not_complete_report lacks asks heard complete
  have command : Event.sent updateFrame = (Event.sent updateFrame : Event Frame Reply) := rfl
  exact not_precedes (q := (· = .sent updateFrame)) none command later

/-- **Start of the new program**: the command is sent only after the inverter has reported that no packet is missing, in
every run but those in which it reports missing packages while their file is not opened. -/
theorem start_after_complete_iff (first second : String → Option (List Byte)) (packageBuff : List Byte) (model : Nat)
    (replies : List Reply) :
    StartsComplete ((remoteUpdateSingle first second packageBuff model).run replies).1 ↔
      ¬ Unopened first second model replies := by
  constructor
  · exact fun ordered run => run.starts packageBuff ordered
  · intro opened
    rcases remoteUpdateSingle_cases first second packageBuff model replies with
      none | ⟨sent, ending, starting, rest, ended, rfl, ends, starts⟩
    · exact precedes_of_none none
    · rw [remoteUpdateSingle_run ends starts sent rest]
      by_cases one : (complementupdatepackageSingle second model 0 rest).2 = some 1
      · obtain ⟨later, begins⟩ := complementThenStart_one one
        by_cases early : ∃ data, some data ∈ ending ++ starting ∧ Complete data
        · obtain ⟨data, mem, complete⟩ := early
          exact precedes_append (mem_firstPass_received.2 mem) ⟨data, rfl, complete⟩ firstPass_none _
        · rw [begins, ← List.append_assoc]
          rcases complement_one (by decide) one with
            ⟨last, mem, complete⟩ | ⟨unopened, asking, rest, report, rfl, asks, kind, lacks⟩
          · refine precedes_append (List.mem_append_right _ (mem_exchanges_received.2 mem)) ⟨last, rfl, complete⟩ ?_ _
            rintro event inside rfl
            rcases List.mem_append.1 inside with before | asked
            · exact firstPass_none _ before rfl
            · exact complement_never second model rest updateFrame asked rfl
          · exact absurd ⟨sent, unopened, ending, starting, asking, rest, ended, report, rfl, ends, starts, asks, kind,
              lacks, fun data mem complete => early ⟨data, mem, complete⟩⟩ opened
      · refine precedes_of_none fun event mem => ?_
        rcases List.mem_append.1 mem with early | late
        · exact firstPass_none event early
        · exact complementThenStart_other one event late

end Run

/-! ## A file under another name -/

/-- The program of the models 3 and 4 is there under the name of the first pass. -/
def sampleProgram (name : String) : Option (List Byte) :=
  if name = "/home/UP500.BIN" then some sampleFile else none

/-- The inverter answers each command, and misses a package. -/
def lackingReplies : List Reply :=
  [some [0xFB, 0xFB, 0x03, 0x3C, 0x00, 0x00, 0xFE, 0xFE], some [0xFB, 0xFB, 0x01, 0x18, 0x00, 0x00, 0xFE, 0xFE],
    some sampleReport]

/-- The inverter is told to start although a package is missing. -/
theorem start_incomplete : ¬ ∀ (first second : String → Option (List Byte)) (packageBuff : List Byte) (model : Nat)
    (replies : List Reply), StartsComplete ((remoteUpdateSingle first second packageBuff model).run replies).1 := by
  intro claim
  have sent : (firmware 3).bind sampleProgram = some sampleFile := by simp [firmware, sampleProgram]
  have unopened : (complementFirmware 3).bind sampleProgram = none := by simp [complementFirmware, sampleProgram]
  have run : Unopened sampleProgram sampleProgram 3 lackingReplies := by
    refine ⟨by rw [sent]; rfl, unopened, [some [0xFB, 0xFB, 0x03, 0x3C, 0x00, 0x00, 0xFE, 0xFE]],
      [some [0xFB, 0xFB, 0x01, 0x18, 0x00, 0x00, 0xFE, 0xFE]], [some sampleReport], [], some (), sampleReport, rfl,
      .now (by decide), .now (by decide), .now (by decide), by decide, by decide, ?_⟩
    intro data mem complete
    have short : data.length = 8 := by
      rcases List.mem_cons.1 mem with same | mem
      · rw [Option.some.inj same]
        rfl
      · rw [Option.some.inj (List.mem_singleton.1 mem)]
        rfl
    rcases complete.1 with report | report
    · exact absurd (report.1.symm.trans short) (by decide)
    · exact absurd (report.1.symm.trans short) (by decide)
  exact run.starts [] (claim sampleProgram sampleProgram [] 3 lackingReplies)

end Ecu.Update
