import Ecu.Lib.Mutex
import Ecu.Lib.Runs

/-!
# Restarting a thread (`threadlist.c`)

`restartThread` detaches a thread wherever it stands and starts it anew. The thread object stays the same and the
mutex is not touched, so `record_data_lock` goes on to be owned by the thread, which does not know of it any more: it
takes and releases the lock as before, and the count never gets to 0. The phone handlers and the ID writer restart the
main thread themselves, A103, A107 and the shell commands of the EMA have a timer do it.
-/

namespace Ecu.Threads

open Mutex

inductive Thread where
  | main
  | phone
  | control
  | client
  | idwrite
  | ntp
  | update
deriving DecidableEq

/-- What a thread does beside taking and releasing `record_data_lock`. -/
inductive Effect where
  /-- An access to a file or a table, an exchange over the radio. -/
  | work
  | restartThread (type : Thread)
  | threadRestartTimer (type : Thread)
deriving DecidableEq

abbrev Code := List (Event Effect)

def work (n : Nat) : Code :=
  List.replicate n (.other .work)

def locked (code : Code) : Code :=
  .take :: (code ++ [.release])

/-! ## The functions -/

/-- The functions that take the lock first, and on each of their paths release it before they return. -/
inductive Section where
  -- the main thread
  | processMaxPower
  | readMaxPower
  | setIrdSingle
  | setIrdAll
  | getIrdFromInverters
  | turnOnOff
  | clearGfdi
  | setProtectionParameters
  | setProtectionParametersInverterOne
  | searchDailyEnergy
  | searchMonthlyEnergy
  | saveSystemPower
  | deleteSystemPower2MonthAgo
  | saveRecord
  | checkOldFile
  -- the client
  | detectionResendflag2
  | changeResendflag
  | searchReadflag
  | deleteFileResendflag0
  -- the control client, its scans and its handlers
  | detectionStatusflag
  | changeStatusflag1
  | deleteStatusflag0
  | changeStatusflag
  | searchStatusflag
  | deleteProResultFlag0
  | deleteInvProResultFlag0
  | changeProResultFlag
  | changeInvProResultFlag
  | searchProResultFlag
  | searchInvProResultFlag
  | readInverterIrd
  | setInverterIrd
  | responseEcuAcProtection17
  | setInverterAcProtection17
  | readInverterAcProtection17
  | responseInverterPowerFactor
  | setAllInverterPowerFactor
  | responseCommConfig
  | setInverterOnoff
  | setEcuFlag
  | setInverterMaxpower
  | responseInverterMaxpower
  | clearInverterGfdi
  | responseInverterId
  | setInverterUpdate
  -- NTP
  | updateTime
deriving DecidableEq

/-- The thread that calls it; `search_readflag` is called by the ID writer too. -/
def Section.thread : Section → Thread
  | processMaxPower | readMaxPower | setIrdSingle | setIrdAll | getIrdFromInverters | turnOnOff | clearGfdi
  | setProtectionParameters | setProtectionParametersInverterOne | searchDailyEnergy | searchMonthlyEnergy
  | saveSystemPower | deleteSystemPower2MonthAgo | saveRecord | checkOldFile => .main
  | detectionResendflag2 | changeResendflag | searchReadflag | deleteFileResendflag0 => .client
  | updateTime => .ntp
  | _ => .control

/-- The commands of the ID writer that restart the main thread or take the lock again. -/
inductive IdwriteCommand where
  | setEcuId
  | setTime
  | setInverterId
  | queryResult
  | clear
  | others
deriving DecidableEq

/-- `insertinverter` restarts the main thread, and so does its caller. -/
def IdwriteCommand.code : IdwriteCommand → Code
  | setEcuId | clear => work 1 ++ [.other (.restartThread .main)] ++ work 1
  | setTime => work 1 ++ [.other (.restartThread .main)]
  | setInverterId => work 1 ++ [.other (.restartThread .main)] ++ work 1 ++ [.other (.restartThread .main)]
  | queryResult => locked (work 1) ++ work 1
  | others => work 1

/-- The calls that concern the lock or restarts; a loop in them is made `n` times. -/
inductive Call where
  | critical (f : Section) (n : Nat)
  | updateDailyEnergy (found : Bool) (n : Nat)
  | updateMonthlyEnergy (found : Bool) (n : Nat)
  /-- Whether there is little room left, and in which of the four directories a file is found. -/
  | optimizeFileSystem (full : Bool) (found : List Bool) (n : Nat)
  /-- `save_status` and the functions that save results, which do not take the lock, and everything else. -/
  | others (t : Thread) (n : Nat)
  | phoneRegisterID
  | phoneSetTime
  | phoneSetChannel
  /-- A103. -/
  | setInverterId (checked : Bool)
  /-- A107, for the kinds of its sections. -/
  | setCommConfig (types : List Nat)
  /-- A command that restarts a thread. -/
  | mysystem (type : Thread)
  | idwrite (command : IdwriteCommand)
deriving DecidableEq

/-- `update_daily_energy` and `update_monthly_energy`: the search has a critical section of its own. -/
def updateEnergy (found : Bool) (n : Nat) : Code :=
  locked (work n) ++ (if found then work 1 else []) ++ locked (work 1)

/-- The lock is taken again for each search for the oldest file. -/
def optimizeFileSystem (full : Bool) (found : List Bool) (n : Nat) : Code :=
  if full then locked (found.flatMap fun old => locked (work n) ++ if old then work 1 else []) else work 1

def Call.code : Call → Code
  | critical _ n => locked (work n)
  | updateDailyEnergy found n | updateMonthlyEnergy found n => updateEnergy found n
  | optimizeFileSystem full found n => Threads.optimizeFileSystem full found n
  | others _ n => work n
  | phoneRegisterID | phoneSetChannel => work 1 ++ [.other (.restartThread .main)]
  | phoneSetTime => work 1 ++ [.other (.restartThread .main)] ++ work 1
  | setInverterId checked => locked (work 1 ++ if checked then [.other (.threadRestartTimer .main)] else [])
  | setCommConfig types =>
    locked (types.flatMap fun type => work 1 ++ if type = 1 then [.other (.threadRestartTimer .client)] else [])
  | mysystem type =>
    match type with
    | .update | .idwrite | .main | .client | .ntp => [.other (.threadRestartTimer type)]
    | .phone | .control => []
  | idwrite command => locked command.code

def Call.thread : Call → Thread
  | critical f _ => f.thread
  | updateDailyEnergy _ _ | updateMonthlyEnergy _ _ | optimizeFileSystem _ _ _ => .main
  | others t _ => t
  | phoneRegisterID | phoneSetTime | phoneSetChannel => .phone
  | setInverterId _ | setCommConfig _ | mysystem _ => .control
  | idwrite _ => .idwrite

/-! ## The system -/

/-- The lock and the threads, the timers that run, and the thread that the next of them restarts. -/
structure System where
  threads : State Thread Effect
  timers : Nat
  threadRestartType : Option Thread

def start : System where
  threads := ⟨⟨none, 0⟩, fun _ => []⟩
  timers := 0
  threadRestartType := none

/-- The thread begins anew. -/
def restartThread (s : System) (type : Thread) : System :=
  { s with threads := s.threads.start type [] }

/-- All timers share the variable for the thread. -/
def threadRestartTimer (s : System) (type : Thread) : System :=
  { s with timers := s.timers + 1, threadRestartType := some type }

/-- What the event does to the rest of the system. -/
def Effect.apply (s : System) : Event Effect → System
  | .other (.restartThread type) => Threads.restartThread s type
  | .other (.threadRestartTimer type) => Threads.threadRestartTimer s type
  | _ => s

inductive Act where
  | call (c : Call)
  /-- The thread is scheduled for its next event. A thread that waits for the lock takes it when it is handed over. -/
  | next (t : Thread)
  | threadRestartTimeout
deriving DecidableEq

def step (s : System) : Act → Option System
  | .call c => if s.threads.rest c.thread = [] then some { s with threads := s.threads.start c.thread c.code } else none
  | .next t => (s.threads.exec t).map fun out => Effect.apply { s with threads := out.2 } out.1
  | .threadRestartTimeout =>
    if s.timers = 0 then none
    else s.threadRestartType.map fun type => restartThread { s with timers := s.timers - 1 } type

/-- The lock is free, or its owner will free it without the help of another thread. -/
def Returned (s : System) : Prop :=
  s.threads.lock.owner = none ∨ ∃ t, s.threads.lock.owner = some t ∧
    ∃ n s', Runs.run step (List.replicate n (.next t)) s = some s' ∧ s'.threads.lock.owner = none

/-- The thread that the step restarts. -/
def System.restarts (s : System) : Act → Option Thread
  | .call _ => none
  | .next t =>
    match s.threads.rest t with
    | .other (.restartThread type) :: _ => some type
    | _ => none
  | .threadRestartTimeout => s.threadRestartType

/-- A thread that is restarted does not own the lock. -/
def RestartsFree (s : System) (a : Act) : Prop :=
  ∀ type, s.restarts a = some type → s.threads.lock.owner ≠ some type

/-! ## The code of the functions -/

theorem closes_work (n : Nat) : Closes (work n) 0 := by
  rw [work, ← List.map_replicate]
  exact closes_others _

theorem closes_locked {code : Code} (closes : Closes code 0) : Closes (locked code) 0 :=
  closes_section closes

theorem closes_optional (b : Bool) {code : Code} (closes : Closes code 0) : Closes (if b then code else []) 0 := by
  cases b
  · exact rfl
  · exact closes

theorem closes_updateEnergy (found : Bool) (n : Nat) : Closes (updateEnergy found n) 0 :=
  ((closes_locked (closes_work n)).append (closes_optional found (closes_work 1))).append
    (closes_locked (closes_work 1))

theorem IdwriteCommand.closes (command : IdwriteCommand) : Closes command.code 0 := by
  cases command with
  | queryResult => exact (closes_locked (closes_work 1)).append (closes_work 1)
  | setEcuId | setTime | setInverterId | clear | others => exact rfl

/-- Every function gives the lock back. -/
theorem Call.closes (c : Call) : Closes c.code 0 := by
  cases c with
  | critical f n => exact closes_locked (closes_work n)
  | updateDailyEnergy found n => exact closes_updateEnergy found n
  | updateMonthlyEnergy found n => exact closes_updateEnergy found n
  | optimizeFileSystem full found n =>
    rw [code, Threads.optimizeFileSystem]
    split_ifs
    · exact closes_locked (closes_flatMap fun old =>
        (closes_locked (closes_work n)).append (closes_optional old (closes_work 1)))
    · exact closes_work 1
  | others t n => exact closes_work n
  | setInverterId checked => exact closes_locked ((closes_work 1).append (closes_optional checked rfl))
  | setCommConfig types =>
    refine closes_locked (closes_flatMap fun type => (closes_work 1).append ?_)
    split_ifs <;> rfl
  | idwrite command => exact closes_locked command.closes
  | phoneRegisterID | phoneSetTime | phoneSetChannel => exact rfl
  | mysystem type => cases type <;> exact rfl

/-- No thread restarts itself. -/
theorem Call.others_restarted (c : Call) : .other (.restartThread c.thread) ∉ c.code := by
  cases c with
  | critical f n => simp [code, locked, work]
  | updateDailyEnergy found n => cases found <;> simp [code, updateEnergy, locked, work]
  | updateMonthlyEnergy found n => cases found <;> simp [code, updateEnergy, locked, work]
  | optimizeFileSystem full found n =>
    cases full
    · simp [code, Threads.optimizeFileSystem, work]
    · simp [code, Threads.optimizeFileSystem, locked, work]
  | others t n => simp [code, work]
  | setInverterId checked => cases checked <;> simp [code, locked, work]
  | setCommConfig types => simp [code, locked, work]
  | idwrite command => cases command <;> simp [code, IdwriteCommand.code, thread, locked, work]
  | phoneRegisterID | phoneSetTime | phoneSetChannel => simp [code, thread, work]
  | mysystem type => cases type <;> simp [code]

/-! ## Runs -/

/-- Every thread gives back what it holds, and restarts only others. -/
structure Healthy (s : State Thread Effect) : Prop where
  sound : Mutex.Sound s
  others : ∀ t, .other (.restartThread t) ∉ s.rest t

theorem healthy_start : Healthy start.threads :=
  ⟨⟨fun _ => rfl, iff_of_true rfl rfl⟩, fun _ => List.not_mem_nil⟩

theorem Healthy.start {s : State Thread Effect} (healthy : Healthy s) {t : Thread} (free : s.lock.owner ≠ some t)
    {code : Code} (closes : Closes code 0) (others : .other (.restartThread t) ∉ code) : Healthy (s.start t code) := by
  refine ⟨healthy.sound.start free closes, fun u => ?_⟩
  by_cases same : u = t
  · rwa [same, State.start_self]
  · rw [State.start_of_ne s same]
    exact healthy.others u

theorem Healthy.restart {s : State Thread Effect} (healthy : Healthy s) {type : Thread}
    (free : s.lock.owner ≠ some type) :
    Healthy (s.start type []) :=
  healthy.start free rfl List.not_mem_nil

theorem Healthy.exec {s s' : State Thread Effect} (healthy : Healthy s) {t : Thread} {e : Event Effect}
    (made : s.exec t = some (e, s')) : Healthy s' := by
  refine ⟨healthy.sound.exec made, fun u => ?_⟩
  obtain ⟨code, rest, later, -⟩ := exec_cases made
  rw [later]
  by_cases same : u = t
  · subst same
    rw [Function.update_self]
    have whole := healthy.others u
    rw [rest] at whole
    exact fun mem => whole (List.mem_cons_of_mem e mem)
  · rw [Function.update_of_ne same]
    exact healthy.others u

/-- What a step does to the lock and the threads: a thread begins a call, or executes an event, or, by an event or a
timer, a thread is restarted. -/
theorem step_cases {s s' : System} {a : Act} (made : step s a = some s') :
    (∃ c : Call, s.threads.rest c.thread = [] ∧ s'.threads = s.threads.start c.thread c.code ∧ s.restarts a = none) ∨
      (∃ t e, s.threads.exec t = some (e, s'.threads) ∧ s.restarts a = none) ∨
      ∃ type threads, s.restarts a = some type ∧ s'.threads = threads.start type [] ∧ threads.lock = s.threads.lock ∧
        (threads = s.threads ∨ ∃ t e, s.threads.exec t = some (e, threads)) := by
  cases a with
  | call c =>
    rw [step] at made
    split_ifs at made with idle
    cases made
    exact .inl ⟨c, idle, rfl, rfl⟩
  | next t =>
    obtain ⟨⟨e, threads⟩, exec, rfl⟩ := Option.map_eq_some_iff.1 made
    obtain ⟨code, rest, -, lock⟩ := exec_cases exec
    right
    rw [System.restarts, rest]
    cases e with
    | take | release => exact .inl ⟨t, _, exec, rfl⟩
    | other effect =>
      cases effect with
      | work | threadRestartTimer type => exact .inl ⟨t, _, exec, rfl⟩
      | restartThread type => exact .inr ⟨type, threads, rfl, rfl, lock, .inr ⟨t, _, exec⟩⟩
  | threadRestartTimeout =>
    rw [step] at made
    split_ifs at made
    obtain ⟨type, restarts, rfl⟩ := Option.map_eq_some_iff.1 made
    exact .inr (.inr ⟨type, s.threads, restarts, rfl, rfl, .inl rfl⟩)

theorem Healthy.step {s s' : System} (healthy : Healthy s.threads) {a : Act} (made : step s a = some s')
    (free : RestartsFree s a) : Healthy s'.threads := by
  rcases step_cases made with ⟨c, idle, same, -⟩ | ⟨t, e, exec, -⟩ | ⟨type, threads, restarts, same, lock, before⟩
  · rw [same]
    exact healthy.start (healthy.sound.idle idle) c.closes c.others_restarted
  · exact healthy.exec exec
  · have healthy' : Healthy threads := by
      rcases before with rfl | ⟨t, e, exec⟩
      · exact healthy
      · exact healthy.exec exec
    rw [same]
    exact healthy'.restart (lock ▸ free type restarts)

theorem apply_lock (s : System) (e : Event Effect) : (Effect.apply s e).threads.lock = s.threads.lock := by
  cases e with
  | take | release => rfl
  | other effect => cases effect <;> rfl

theorem apply_rest (s : System) {e : Event Effect} {t : Thread} (other : e ≠ .other (.restartThread t)) :
    (Effect.apply s e).threads.rest t = s.threads.rest t := by
  cases e with
  | take | release => rfl
  | other effect =>
    cases effect with
    | work | threadRestartTimer type => rfl
    | restartThread type => exact State.start_of_ne s.threads (fun same => other (by rw [same])) []

theorem restarts_next {s : System} {t type : Thread} {e : Event Effect} {code : Code}
    (rest : s.threads.rest t = e :: code)
    (restarts : s.restarts (.next t) = some type) : e = .other (.restartThread type) := by
  rw [System.restarts, rest] at restarts
  cases e with
  | take | release => cases restarts
  | other effect =>
    cases effect with
    | work | threadRestartTimer type => cases restarts
    | restartThread type => rw [Option.some.inj restarts]

/-- The owner goes on by itself until the lock is free. -/
theorem Healthy.frees {s : System} (healthy : Healthy s.threads) {t : Thread} (owns : s.threads.lock.owner = some t) :
    ∃ n s', Runs.run Threads.step (List.replicate n (.next t)) s = some s' ∧ s'.threads.lock.owner = none := by
  obtain ⟨k, small⟩ : ∃ k, (s.threads.rest t).length = k := ⟨_, rfl⟩
  induction k generalizing s with
  | zero => exact absurd owns (healthy.sound.idle (List.length_eq_zero_iff.1 small))
  | succ k ih =>
    obtain ⟨e, threads, exec⟩ := healthy.sound.progress owns
    obtain ⟨code, rest, later, -⟩ := exec_cases exec
    have made : Threads.step s (.next t) = some (Effect.apply { s with threads := threads } e) := by
      rw [Threads.step, exec]
      rfl
    generalize next : Effect.apply { s with threads := threads } e = s' at made
    have others := healthy.others t
    rw [rest] at others
    have other : e ≠ .other (.restartThread t) := fun same => others (same ▸ List.mem_cons_self)
    have free : RestartsFree s (.next t) := by
      intro type restarts owner
      rw [owns] at owner
      cases owner
      exact other (restarts_next rest restarts)
    have after : s'.threads.lock.owner = some t ∨ s'.threads.lock.owner = none := by
      rw [← next, apply_lock]
      exact exec_owner owns exec
    rcases after with owns' | freed
    · have shorter : (s'.threads.rest t).length = k := by
        rw [← next, apply_rest _ other, later, Function.update_self]
        rw [rest] at small
        exact Nat.succ.inj small
      obtain ⟨n, last, ran, freed⟩ := ih (healthy.step made free) owns' shorter
      refine ⟨n + 1, last, ?_, freed⟩
      rw [List.replicate_succ, Runs.run, made]
      exact ran
    · refine ⟨1, s', ?_, freed⟩
      rw [List.replicate_one, Runs.run, made]
      rfl

theorem Healthy.returned {s : System} (healthy : Healthy s.threads) : Returned s := by
  cases owner : s.threads.lock.owner with
  | none => exact .inl owner
  | some t => exact .inr ⟨t, owner, healthy.frees owner⟩

theorem stuck_step {s s' : System} {t : Thread} (stuck : Stuck s.threads t) {a : Act} (made : step s a = some s') :
    Stuck s'.threads t := by
  rcases step_cases made with ⟨c, -, same, -⟩ | ⟨u, e, exec, -⟩ | ⟨type, threads, -, same, -, before⟩
  · rw [same]
    exact stuck.start c.closes
  · exact stuck.exec exec
  · have stuck' : Stuck threads t := by
      rcases before with rfl | ⟨u, e, exec⟩
      · exact stuck
      · exact stuck.exec exec
    rw [same]
    exact stuck'.start rfl

theorem stuck_run {s s' : System} {t : Thread} (stuck : Stuck s.threads t) {acts : List Act}
    (ran : Runs.run step acts s = some s') : Stuck s'.threads t :=
  Runs.run_rule (fun s => Stuck s.threads t) (fun stuck made => stuck_step stuck made) stuck ran

/-- Nothing that happens later frees the lock. -/
theorem not_returned {s : System} {t : Thread} (stuck : Stuck s.threads t) : ¬ Returned s := by
  rintro (free | ⟨u, -, n, s', ran, free⟩)
  · rw [stuck.owns] at free
    cases free
  · rw [(stuck_run stuck ran).owns] at free
    cases free

theorem Healthy.free {s s' : System} (healthy : Healthy s.threads) {a : Act} (made : Threads.step s a = some s')
    (returned : Returned s') : RestartsFree s a := by
  intro type restarts owns
  rcases step_cases made with ⟨c, -, -, none⟩ | ⟨t, e, -, none⟩ | ⟨type', threads, restarts', same, lock, before⟩
  · rw [restarts] at none
    cases none
  · rw [restarts] at none
    cases none
  · rw [restarts] at restarts'
    cases restarts'
    have sound : Mutex.Sound threads := by
      rcases before with rfl | ⟨t, e, exec⟩
      · exact healthy.sound
      · exact healthy.sound.exec exec
    have stuck : Stuck s'.threads type := by
      rw [same]
      exact sound.stuck (lock ▸ owns)
    exact not_returned stuck returned

/-- In every state of a run the lock is free, or owned by a thread that will free it, exactly if no thread is
restarted in the run while it owns the lock. -/
theorem lock_returned_iff (acts : List Act) : Runs.Always step Returned acts start ↔
    Runs.Along step RestartsFree acts start :=
  Runs.always_iff_along (fun s => Healthy s.threads) (fun healthy => healthy.returned)
    (fun healthy made returned => healthy.free made returned) (fun healthy made free => healthy.step made free)
      healthy_start

/-- The main thread is setting the power of an inverter, and the phone sets the time. -/
theorem restart_in_section :
    ¬ Runs.Always step Returned
      [.call (.critical .processMaxPower 3), .next .main, .next .main, .call .phoneSetTime, .next .phone,
        .next .phone] start := by
  intro always
  obtain ⟨s', ran, stuck⟩ : ∃ s', Runs.run step
      [.call (.critical .processMaxPower 3), .next .main, .next .main, .call .phoneSetTime, .next .phone, .next .phone]
      start = some s' ∧ Stuck s'.threads .main := ⟨_, rfl, ⟨rfl, 0, by decide, rfl⟩⟩
  exact not_returned stuck (always.last ran)

end Ecu.Threads
