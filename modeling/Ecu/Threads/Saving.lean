import Ecu.Threads.Restart
import Ecu.Forward.Run

/-!
# Saving while a clean-up runs (`file.c`, `control_client.c`)

`save_status` and the functions that save results do not take `record_data_lock`, the clean-ups do. Every step here is
one file operation. A descriptor has the size of the file that `f_open` found in the directory, and what it appended
is there for others when it is closed (`f_sync` writes the size); `dfs_file_unlink` refuses a file that is open. A
clean-up decides about a file as it was when it was opened, and a save puts the file as it was when it was opened, and
its record, in the place of what is there.
-/

namespace Ecu.Saving

open Forward Threads

variable {q : Queue}

/-! ## The threads -/

/-- A call of the save function of the queue: the file of the day, and the record that it adds. -/
structure Save (q : Queue) where
  name : List Byte
  record : Record q
  isNew : record.flag = digit 1

/-- Where `delete_statusflag0`, `delete_pro_result_flag0` or `delete_inv_pro_result_flag0` stands. -/
inductive Cleaning where
  /-- Before `rt_mutex_take`. -/
  | called
  /-- In front of `readdir`. -/
  | reading
  /-- The file that was opened, and the lines that `fgets` has not given yet. -/
  | scanning (name : List Byte) (found : File) (rest : List (List Byte))
  /-- The loop is left, `flag` is set if there was a record that is still needed. -/
  | scanned (name : List Byte) (found : File) (flag : Bool)
  /-- The file is closed. -/
  | decided (name : List Byte) (found : File) (flag : Bool)

inductive Task (q : Queue) where
  | idle
  /-- The file is open: what was found in it, what is appended, and the writes that follow. -/
  | saving (call : Save q) (found written : File) (writes : List File)
  | cleaning (stands : Cleaning)

/-- The file that the thread has open. -/
def Task.opened : Task q → Option (List Byte)
  | saving call _ _ _ => some call.name
  | cleaning (.scanning name _ _) | cleaning (.scanned name _ _) => some name
  | _ => none

/-- The files of the directory, the threads, `record_data_lock`, and the saves that are completed. -/
structure State (q : Queue) where
  files : List Byte → Option File
  task : Thread → Task q
  lock : Mutex.Lock Thread
  saved : List (Save q)

/-- Only the main and the control thread save. -/
def State.isOpen (s : State q) (name : List Byte) : Bool :=
  (s.task .main).opened == some name || (s.task .control).opened == some name

inductive Act (q : Queue) where
  /-- `open(dir, O_WRONLY | O_APPEND | O_CREAT)` of a save. -/
  | openFile (t : Thread) (call : Save q)
  | append (t : Thread)
  | close (t : Thread)
  /-- The control thread calls the clean-up. -/
  | delete
  | take
  /-- `readdir` gives a file, and it is opened. -/
  | fopen (name : List Byte)
  | fgets
  | fclose
  | unlink
  | closedir
  /-- Other users of the lock. -/
  | othersTake (t : Thread)
  | othersRelease (t : Thread)

/-- The line of a record that is not confirmed. -/
def needed (q : Queue) (buff : List Byte) : Bool :=
  separated q.seps buff && fromEnd buff 2 != some (digit 0)

def State.set (s : State q) (t : Thread) (task : Task q) : State q :=
  { s with task := Function.update s.task t task }

def State.put (s : State q) (name : List Byte) (content : Option File) : State q :=
  { s with files := Function.update s.files name content }

def step (s : State q) : Act q → Option (State q)
  | .openFile t call =>
    match s.task t with
    | .idle =>
      if t = .main ∨ t = .control then
        let found := (s.files call.name).getD []
        some ((s.put call.name (some found)).set t (.saving call found [] [[newline], call.record.line]))
      else none
    | _ => none
  | .append t =>
    match s.task t with
    | .saving call found written (bytes :: writes) => some (s.set t (.saving call found (written ++ bytes) writes))
    | _ => none
  | .close t =>
    match s.task t with
    | .saving call found written [] =>
      some { (s.put call.name (some (found ++ written))).set t .idle with saved := call :: s.saved }
    | _ => none
  | .delete =>
    match s.task .control with
    | .idle => some (s.set .control (.cleaning .called))
    | _ => none
  | .take =>
    match s.task .control with
    | .cleaning .called => (s.lock.take .control).map fun lock =>
      { s.set .control (.cleaning .reading) with lock := lock }
    | _ => none
  | .fopen name =>
    match s.task .control, s.files name with
    | .cleaning .reading, some found => some (s.set .control (.cleaning (.scanning name found (buffLines found))))
    | _, _ => none
  | .fgets =>
    match s.task .control with
    | .cleaning (.scanning name found []) => some (s.set .control (.cleaning (.scanned name found false)))
    | .cleaning (.scanning name found (buff :: rest)) =>
      some (s.set .control (.cleaning (if needed q buff then .scanned name found true else .scanning name found rest)))
    | _ => none
  | .fclose =>
    match s.task .control with
    | .cleaning (.scanned name found flag) => some (s.set .control (.cleaning (.decided name found flag)))
    | _ => none
  | .unlink =>
    match s.task .control with
    | .cleaning (.decided name _ flag) =>
      let next := s.set .control (.cleaning .reading)
      some (if flag || s.isOpen name then next else next.put name none)
    | _ => none
  | .closedir =>
    match s.task .control with
    | .cleaning .reading => some { s.set .control .idle with lock := s.lock.release .control }
    | _ => none
  | .othersTake t => if t = .control then none else (s.lock.take t).map fun lock => { s with lock := lock }
  | .othersRelease t => if t = .control then none else some { s with lock := s.lock.release t }

theorem State.set_self (s : State q) (t : Thread) (task : Task q) : (s.set t task).task t = task :=
  Function.update_self ..

theorem State.set_of_ne (s : State q) {t u : Thread} (ne : u ≠ t) (task : Task q) : (s.set t task).task u = s.task u :=
  Function.update_of_ne ne ..

theorem State.put_self (s : State q) (name : List Byte) (content : Option File) :
    (s.put name content).files name = content :=
  Function.update_self ..

theorem State.put_of_ne (s : State q) {name other : List Byte} (ne : other ≠ name) (content : Option File) :
    (s.put name content).files other = s.files other :=
  Function.update_of_ne ne ..

/-! ## What is promised -/

/-- Every record whose save is completed is in the store, and not confirmed. -/
def Kept (s : State q) : Prop :=
  ∀ call ∈ s.saved, ∃ f, s.files call.name = some f ∧ call.record.line ∈ buffLines f

/-- A save is closed, and a file is deleted, only if the file is as the descriptor found it. -/
def Undisturbed (s : State q) : Act q → Prop
  | .close t =>
    match s.task t with
    | .saving call found _ _ => s.files call.name = some found
    | _ => True
  | .unlink =>
    match s.task .control with
    | .cleaning (.decided name found false) => s.isOpen name = false → s.files name = some found
    | _ => True
  | _ => True

/-! ## Files -/

theorem needed_record (r : Record q) : needed q r.line = (r.flag != digit 0) := by
  rw [needed, r.separated_line, Bool.true_and, r.fromEnd_flag]
  rfl

/-- A file of records and empty lines. -/
def Lined (q : Queue) (f : File) : Prop :=
  ∃ ls : List (Line q), f = Store.renderFile ls

theorem lined_nil : Lined q [] :=
  ⟨[], rfl⟩

/-- A save adds an empty line and its record. -/
theorem Lined.save {f : File} (lined : Lined q f) (r : Record q) :
    Lined q (f ++ newline :: r.line) ∧ buffLines (f ++ newline :: r.line) = buffLines f ++ [[newline], r.line] := by
  obtain ⟨ls, rfl⟩ := lined
  have whole : Store.renderFile ls ++ newline :: r.line = Store.renderFile (ls ++ [.blank, .record r]) := by
    simp [Store.renderFile, Line.bytes]
  refine ⟨⟨_, whole⟩, ?_⟩
  rw [whole, Store.buffLines_render, Store.buffLines_render, List.map_append]
  rfl

/-! ## What a thread knows -/

/-- A save still writes its record; of the lines that a clean-up has read none is needed. -/
def Task.Ok : Task q → Prop
  | .saving call found written writes => Lined q found ∧ written ++ writes.flatten = newline :: call.record.line
  | .cleaning (.scanning _ found rest) => ∃ passed, buffLines found = passed ++ rest ∧ ∀ b ∈ passed, needed q b = false
  | .cleaning (.scanned _ found false) | .cleaning (.decided _ found false) => ∀ b ∈ buffLines found, needed q b = false
  | _ => True

structure Inv (s : State q) : Prop where
  files : ∀ name f, s.files name = some f → Lined q f
  tasks : ∀ t, (s.task t).Ok
  kept : Kept s

theorem Inv.set {s : State q} (inv : Inv s) (t : Thread) {task : Task q} (ok : task.Ok) : Inv (s.set t task) := by
  refine ⟨inv.files, fun u => ?_, inv.kept⟩
  by_cases same : u = t
  · rw [same, s.set_self]
    exact ok
  · rw [s.set_of_ne same]
    exact inv.tasks u

theorem Inv.lock {s : State q} (inv : Inv s) (lock : Mutex.Lock Thread) : Inv { s with lock := lock } :=
  ⟨inv.files, inv.tasks, inv.kept⟩

/-- A file may get more lines. -/
theorem Inv.put {s : State q} (inv : Inv s) {name : List Byte} {f : File} (lined : Lined q f)
    (more : ∀ found, s.files name = some found → ∀ b ∈ buffLines found, b ∈ buffLines f) :
      Inv (s.put name (some f)) := by
  refine ⟨fun other g there => ?_, inv.tasks, fun call saved => ?_⟩
  · by_cases same : other = name
    · rw [same, s.put_self] at there
      cases there
      exact lined
    · rw [s.put_of_ne same] at there
      exact inv.files other g there
  · obtain ⟨found, there, stored⟩ := inv.kept call saved
    by_cases same : call.name = name
    · rw [same] at there ⊢
      exact ⟨f, s.put_self .., more found there _ stored⟩
    · exact ⟨found, (s.put_of_ne same _).trans there, stored⟩

/-- A file in which nothing is needed may be deleted. -/
theorem Inv.unlink {s : State q} (inv : Inv s) {name : List Byte} {found : File} (there : s.files name = some found)
    (unneeded : ∀ b ∈ buffLines found, needed q b = false) : Inv (s.put name none) := by
  refine ⟨fun other g there => ?_, inv.tasks, fun call saved => ?_⟩
  · by_cases same : other = name
    · rw [same, s.put_self] at there
      cases there
    · rw [s.put_of_ne same] at there
      exact inv.files other g there
  · obtain ⟨f, own, stored⟩ := inv.kept call saved
    by_cases same : call.name = name
    · rw [same, there] at own
      cases own
      have own := unneeded _ stored
      rw [needed_record, call.isNew] at own
      exact absurd own (by decide)
    · exact ⟨f, (s.put_of_ne same _).trans own, stored⟩

/-! ## The steps -/

/-- A save that is closed undisturbed adds its record. -/
theorem Inv.close {s : State q} (inv : Inv s) {t : Thread} {call : Save q} {found written : File}
    (saving : s.task t = .saving call found written []) (there : s.files call.name = some found) :
    Inv { (s.put call.name (some (found ++ written))).set t .idle with saved := call :: s.saved } := by
  obtain ⟨lined, whole⟩ : Lined q found ∧ written ++ ([] : List File).flatten = newline :: call.record.line := by
    have ok := inv.tasks t
    rwa [saving] at ok
  rw [List.flatten_nil, List.append_nil] at whole
  obtain ⟨lined', lines⟩ := lined.save call.record
  have more : ∀ f, s.files call.name = some f → ∀ b ∈ buffLines f, b ∈ buffLines (found ++ written) := by
    intro f same b mem
    rw [there] at same
    cases same
    rw [whole, lines]
    exact List.mem_append_left _ mem
  have closed := @Inv.set q _ (inv.put (whole ▸ lined') more) t .idle trivial
  refine ⟨closed.files, closed.tasks, fun other mem => ?_⟩
  rcases List.mem_cons.1 mem with rfl | mem
  · refine ⟨found ++ written, s.put_self .., ?_⟩
    rw [whole, lines]
    exact List.mem_append_right _ (List.mem_cons_of_mem _ List.mem_cons_self)
  · exact closed.kept other mem

/-- A save opens its file, which is created if it is not there. -/
theorem Inv.openFile {s : State q} (inv : Inv s) (t : Thread) (call : Save q) :
    Inv ((s.put call.name (some ((s.files call.name).getD []))).set t
      (.saving call ((s.files call.name).getD []) [] [[newline], call.record.line])) := by
  have lined : Lined q ((s.files call.name).getD []) := by
    cases there : s.files call.name with
    | none => exact lined_nil
    | some f => exact inv.files _ f there
  have same : ∀ f, s.files call.name = some f → ∀ b ∈ buffLines f, b ∈ buffLines ((s.files call.name).getD []) := by
    intro f there b mem
    rwa [there]
  refine (inv.put lined same).set t ⟨lined, ?_⟩
  simp

theorem Inv.append {s : State q} (inv : Inv s) {t : Thread} {call : Save q} {found written bytes : File}
    {writes : List File}
    (saving : s.task t = .saving call found written (bytes :: writes)) :
    Inv (s.set t (.saving call found (written ++ bytes) writes)) := by
  have ok := inv.tasks t
  rw [saving] at ok
  refine inv.set t ⟨ok.1, ?_⟩
  rw [List.append_assoc]
  exact ok.2

/-- The clean-up reads a line. -/
theorem Inv.fgets {s : State q} (inv : Inv s) {name : List Byte} {found : File} {buff : List Byte}
    {rest : List (List Byte)}
    (scanning : s.task .control = .cleaning (.scanning name found (buff :: rest))) :
    Inv (s.set .control (.cleaning (if needed q buff then .scanned name found true else .scanning name found
      rest))) := by
  obtain ⟨passed, lines, unneeded⟩ : Task.Ok (.cleaning (.scanning name found (buff :: rest)) : Task q) := by
    have ok := inv.tasks .control
    rwa [scanning] at ok
  refine inv.set .control ?_
  split_ifs with need
  · trivial
  · refine ⟨passed ++ [buff], by simpa using lines, ?_⟩
    intro b mem
    rcases List.mem_append.1 mem with mem | last
    · exact unneeded b mem
    · rw [List.mem_singleton.1 last]
      simpa using need

theorem Inv.scanned {s : State q} (inv : Inv s) {name : List Byte} {found : File}
    (scanning : s.task .control = .cleaning (.scanning name found [])) :
    Inv (s.set .control (.cleaning (.scanned name found false))) := by
  obtain ⟨passed, lines, unneeded⟩ : Task.Ok (.cleaning (.scanning name found []) : Task q) := by
    have ok := inv.tasks .control
    rwa [scanning] at ok
  rw [List.append_nil] at lines
  refine inv.set .control ?_
  show ∀ b ∈ buffLines found, needed q b = false
  rw [lines]
  exact unneeded

theorem Inv.fclose {s : State q} (inv : Inv s) {name : List Byte} {found : File} {flag : Bool}
    (scanned : s.task .control = .cleaning (.scanned name found flag)) :
    Inv (s.set .control (.cleaning (.decided name found flag))) := by
  have ok := inv.tasks .control
  rw [scanned] at ok
  refine inv.set .control ?_
  cases flag
  · exact ok
  · trivial

theorem Inv.step {s s' : State q} (inv : Inv s) {a : Act q} (made : step s a = some s')
    (undisturbed : Undisturbed s a) :
    Inv s' := by
  cases a with
  | openFile t call =>
    rw [Saving.step] at made
    split at made
    · split_ifs at made
      cases made
      exact inv.openFile t call
    · cases made
  | append t =>
    rw [Saving.step] at made
    split at made
    · next saving =>
      cases made
      exact inv.append saving
    · cases made
  | close t =>
    rw [Saving.step] at made
    rw [Undisturbed] at undisturbed
    split at made
    · next saving =>
      rw [saving] at undisturbed
      cases made
      exact inv.close saving undisturbed
    · cases made
  | delete =>
    rw [Saving.step] at made
    split at made
    · cases made
      exact inv.set .control trivial
    · cases made
  | take =>
    rw [Saving.step] at made
    split at made
    · obtain ⟨lock, -, rfl⟩ := Option.map_eq_some_iff.1 made
      exact (@Inv.set q s inv .control (.cleaning .reading) trivial).lock lock
    · cases made
  | fopen name =>
    rw [Saving.step] at made
    split at made
    · cases made
      exact inv.set .control ⟨[], rfl, fun b mem => absurd mem List.not_mem_nil⟩
    · cases made
  | fgets =>
    rw [Saving.step] at made
    split at made
    · next scanning =>
      cases made
      exact inv.scanned scanning
    · next scanning =>
      cases made
      exact inv.fgets scanning
    · cases made
  | fclose =>
    rw [Saving.step] at made
    split at made
    · next scanned =>
      cases made
      exact inv.fclose scanned
    · cases made
  | unlink =>
    rw [Saving.step] at made
    rw [Undisturbed] at undisturbed
    split at made
    · next name found flag decided =>
      have next := @Inv.set q s inv .control (.cleaning .reading) trivial
      cases made
      cases flag with
      | true => exact next
      | false =>
        rw [decided] at undisturbed
        rw [Bool.false_or]
        split_ifs with opened
        · exact next
        · have unneeded := inv.tasks .control
          rw [decided] at unneeded
          exact next.unlink (undisturbed (by simpa using opened)) unneeded
    · cases made
  | closedir =>
    rw [Saving.step] at made
    split at made
    · cases made
      exact (@Inv.set q s inv .control .idle trivial).lock _
    · cases made
  | othersTake t =>
    rw [Saving.step] at made
    split_ifs at made
    obtain ⟨lock, -, rfl⟩ := Option.map_eq_some_iff.1 made
    exact inv.lock lock
  | othersRelease t =>
    rw [Saving.step] at made
    split_ifs at made
    cases made
    exact inv.lock _

/-- The threads are idle. -/
def State.Quiet (s : State q) : Prop :=
  ∀ t, s.task t = .idle

/-- In every run in which saves and clean-ups of a file do not overlap, a completed save is not lost. -/
theorem saved_kept {s : State q} (quiet : s.Quiet) (lined : ∀ name f, s.files name = some f → Lined q f) (kept : Kept s)
    {acts : List (Act q)} (undisturbed : Runs.Along step Undisturbed acts s) : Runs.Always step Kept acts s := by
  have idle : ∀ t, (s.task t).Ok := by
    intro t
    rw [quiet t]
    trivial
  exact Runs.always_of_along Inv Inv.kept (fun inv made ok => inv.step made ok) ⟨lined, idle, kept⟩ undisturbed

/-! ## The first save of a day -/

def nothing : State q where
  files := fun _ => none
  task := fun _ => .idle
  lock := ⟨none, 0⟩
  saved := []

def sampleSave : Save .proResult :=
  ⟨str "20240101.dat", sampleResult, rfl⟩

/-- The clean-up finds the new file and may not delete it, for it is open. -/
theorem saved_kept_sample :
    Runs.Always step Kept [.openFile .main sampleSave, .delete, .take, .fopen sampleSave.name, .fgets, .fclose, .unlink,
      .append .main, .append .main, .close .main] nothing := by
  refine saved_kept (fun _ => rfl) (fun name f there => by cases there) (fun call mem => absurd mem List.not_mem_nil) ?_
  refine Runs.along_cons rfl trivial (Runs.along_cons rfl trivial (Runs.along_cons rfl trivial ?_))
  refine Runs.along_cons rfl trivial (Runs.along_cons rfl trivial (Runs.along_cons rfl trivial ?_))
  refine Runs.along_cons rfl ?_ (Runs.along_cons rfl trivial
    (Runs.along_cons rfl trivial (Runs.along_cons rfl ?_ trivial)))
  · exact fun closed => by cases closed
  · rfl

/-- The file is deleted after the save is completed: the clean-up had opened it before. -/
theorem saved_lost :
    ¬ Runs.Always step Kept [.openFile .main sampleSave, .delete, .take, .fopen sampleSave.name, .fgets, .fclose,
      .append .main, .append .main, .close .main, .unlink] nothing := by
  intro always
  obtain ⟨s', ran, saved, gone⟩ : ∃ s', Runs.run step
    [.openFile .main sampleSave, .delete, .take, .fopen sampleSave.name,
      .fgets, .fclose, .append .main, .append .main, .close .main, .unlink] nothing = some s' ∧ sampleSave ∈ s'.saved ∧
      s'.files sampleSave.name = none := ⟨_, rfl, List.mem_cons_self, rfl⟩
  obtain ⟨f, there, -⟩ := always.last ran sampleSave saved
  rw [gone] at there
  cases there

end Ecu.Saving
