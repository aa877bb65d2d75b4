import Ecu.Forward.Search

/-!
# Runs of the queues

A run is any sequence of saves, transmissions, confirmations and deletions on an initially empty
directory. Every directory of a run is a rendered store (`Run.invariant`), and what was saved and is
still outstanding is in the store with flag `'1'` or `'2'` (`outstanding_stored`): the delete
functions unlink exactly the files all of whose records are `'0'` (`delete_render`).
-/

namespace Ecu.Forward

open FirstMatch

variable {q : Queue}

/-! ## Saving and deleting on stores -/

namespace Store

/-- `appendFile` on stores. -/
def append (s : Store q) (pos : Nat) (name : List Byte) (ls : List (Line q)) : Store q :=
  (modifyFirst (fun e => if e.1 = name then some (e.1, e.2 ++ ls) else none) s).getD
    (s.take pos ++ (name, ls) :: s.drop pos)

theorem renderFile_append (a b : List (Line q)) : renderFile (a ++ b) = renderFile a ++ renderFile b := by
  simp [renderFile]

theorem append_render (s : Store q) (pos : Nat) (name : List Byte) (ls : List (Line q)) :
    appendFile s.render pos name (renderFile ls) = (s.append pos name ls).render := by
  have agree (e : List Byte × List (Line q)) :
      (if e.1 = name then some (e.1, renderFile e.2 ++ renderFile ls) else none) =
        (if e.1 = name then some (e.1, e.2 ++ ls) else none).map fun e => (e.1, renderFile e.2) := by
    split <;> simp [renderFile_append]
  rw [appendFile, append, render,
    modifyFirst_map (fun e : List Byte × List (Line q) => (e.1, renderFile e.2)) agree]
  cases modifyFirst (fun e => if e.1 = name then some (e.1, e.2 ++ ls) else none) s with
  | some t => rfl
  | none => simp [render]

theorem records_append_perm (s : Store q) (pos : Nat) (name : List Byte) (ls : List (Line q)) :
    (s.append pos name ls).records.Perm (Line.records ls ++ s.records) := by
  rw [append]
  cases found : modifyFirst (fun e => if e.1 = name then some (e.1, e.2 ++ ls) else none) s with
  | none =>
    conv => rhs; rw [← List.take_append_drop pos s]
    simp only [Option.getD_none, records_append, records_cons, ← List.append_assoc]
    exact List.perm_append_comm.append_right _
  | some t =>
    obtain ⟨before, e, e', after, rfl, rfl, hit, -⟩ := modifyFirst_some found
    obtain ⟨-, rfl⟩ : e.1 = name ∧ (e.1, e.2 ++ ls) = e' := by simpa using hit
    simp only [Option.getD_some, records_append, records_cons, Line.records_append]
    rw [← List.append_assoc, ← List.append_assoc, ← List.append_assoc, ← List.append_assoc]
    refine List.Perm.append_right _ ?_
    rw [List.append_assoc (Line.records ls)]
    exact List.perm_append_comm

/-- Keep the files with a record that is not confirmed. -/
def delete (s : Store q) : Store q :=
  s.filter fun e => (Line.records e.2).any fun r => r.flag != digit 0

end Store

theorem pendingFile_render (ls : List (Line q)) :
    pendingFile q.seps (Store.renderFile ls) = (Line.records ls).any fun r => r.flag != digit 0 := by
  rw [pendingFile, Store.buffLines_render, List.any_map]
  induction ls with
  | nil => rfl
  | cons l ls ih =>
    rw [List.any_cons, ih]
    cases l with
    | blank => simp [Line.bytes]
    | record r => simp [Line.bytes, bne]

/-- The delete function of a queue. -/
def Queue.delete (q : Queue) (d : Dir) : Dir :=
  match q with
  | .record => deleteFileResendflag0 d
  | .status => deleteStatusflag0 d
  | .proResult => deleteProResultFlag0 d
  | .invProResult => deleteInvProResultFlag0 d

/-- A file goes exactly when every record in it has flag `'0'`. -/
theorem delete_render (s : Store q) : q.delete s.render = s.delete.render := by
  have common : q.delete s.render = deleteFlag0 q.seps s.render := by cases q <;> rfl
  rw [common, deleteFlag0, Store.render, List.filter_map, Store.delete, Store.render]
  simp only [Function.comp_def, pendingFile_render]

/-! ## What is outstanding -/

/-- A record as it was saved: payload and keys. -/
abbrev Saved := List Byte × List (List Byte)

def Record.saved (r : Record q) : Saved :=
  (r.payload, r.keys)

@[simp] theorem Record.withFlag_saved (r : Record q) (c : Byte) (isFlag : IsFlag c) :
    (r.withFlag c isFlag).saved = r.saved := rfl

/-- The records of a store that are not marked as confirmed. -/
def Store.unconfirmed (s : Store q) : List Saved :=
  (s.records.filter fun r => r.flag != digit 0).map Record.saved

inductive Event where
  /-- A record was saved. -/
  | saved (x : Saved)
  /-- A record of a result queue was handed to the socket and the socket took it. -/
  | transmitted (x : Saved)
  /-- A message of EMA confirmed these times. -/
  | confirmed (times : List (List Byte))
  | other
deriving DecidableEq, Repr

/-- What was saved and is not settled, the latest event first. A time confirmed by EMA settles the
records saved with it before; with `sentSettles` a transmission settles the record, too. -/
def outstanding (sentSettles : Bool) : List Event → List Saved
  | [] => []
  | .saved x :: es => x :: outstanding sentSettles es
  | .transmitted x :: es =>
    if sentSettles then (outstanding sentSettles es).erase x else outstanding sentSettles es
  | .confirmed times :: es =>
    (outstanding sentSettles es).filter fun x => x.2.getLastD [] ∉ times.map (List.take 14)
  | .other :: es => outstanding sentSettles es

/-- EMA acknowledges records and statuses by their time. Of the results it acknowledges none:
their senders clear the flag when the transmission succeeded. -/
def Queue.sentSettles : Queue → Bool
  | .record | .status => false
  | .proResult | .invProResult => true

/-! ## Runs -/

/-- The record that a search of a result queue handed out. -/
def SearchOut.saved (out : SearchOut) : Saved :=
  (out.data.takeWhile (· != newline), (out.keys.map cstr).reverse)

/-- The times in an answer. -/
def answerTimes : Option Reply → List (List Byte)
  | none => []
  | some r => confirmedTimes r.readbuff

/-- One operation on the directory of a queue. -/
inductive Step : (q : Queue) → Dir → Event → Dir → Prop where
  | saveRecord (d : Dir) (pos : Nat) (r : Record .record) (isNew : r.flag = digit 1) :
      Step .record d (.saved r.saved) (saveRecord d pos r.payload r.key)
  | sendRecord (d : Dir) (time : List Byte) (answer : Option Reply) :
      Step .record d (.confirmed (answerTimes answer)) (sendRecord d time answer).2
  | preprocess (d : Dir) (answer : Option Reply) :
      Step .record d (.confirmed (answerTimes answer)) (preprocess d answer).2
  | saveStatus (d : Dir) (pos : Nat) (r : Record .status) (isNew : r.flag = digit 1) :
      Step .status d (.saved r.saved) (saveStatus d pos r.payload r.key)
  | statusSent (d : Dir) (time : List Byte) : Step .status d .other (changeStatusflag d time (digit 2)).2
  | statusConfirmed (d : Dir) (time : List Byte) :
      Step .status d (.confirmed [time]) (changeStatusflag d time (digit 0)).2
  | statusRequeued (d : Dir) : Step .status d .other (changeStatusflag1 d).2
  | saveProResult (d : Dir) (pos : Nat) (time : List Byte) (item : Nat) (result : List Byte)
      (r : Record .proResult) (isNew : r.flag = digit 1) (keys : r.keys = [format3d item])
      (payload : r.payload = if result.getLast? = some newline then result.dropLast else result) :
      Step .proResult d (.saved r.saved) (saveProcessResult d pos time item result)
  | proResultSent (d : Dir) (data item : List Byte) (terminated : item.drop 3 = [nul])
      (found : (searchProResultFlag d data item (digit 1)).ret = 1) :
      Step .proResult d (.transmitted (searchProResultFlag d data item (digit 1)).saved)
        (changeProResultFlag d ((searchProResultFlag d data item (digit 1)).keys.getD 0 []) (digit 0)).2
  | saveInvProResult (d : Dir) (pos : Nat) (time id : List Byte) (item : Nat)
      (r : Record .invProResult) (isNew : r.flag = digit 1) (keys : r.keys = [id, format3d item]) :
      Step .invProResult d (.saved r.saved) (saveInverterParametersResult d pos time id item r.payload)
  | invProResultSent (d : Dir) (data item id : List Byte) (terminated : item.drop 3 = [nul])
      (idTerminated : id.drop 12 = [nul])
      (found : (searchInvProResultFlag d data item id (digit 1)).ret = 1) :
      Step .invProResult d (.transmitted (searchInvProResultFlag d data item id (digit 1)).saved)
        (changeInvProResultFlag d ((searchInvProResultFlag d data item id (digit 1)).keys.getD 0 [])
          (digit 0)).2
  | delete (q : Queue) (d : Dir) : Step q d .other (q.delete d)

/-- Runs from the empty directory, the latest event first. -/
inductive Run (q : Queue) : List Event → Dir → Prop where
  | start : Run q [] []
  | step {es : List Event} {d d' : Dir} {e : Event} (run : Run q es d) (step : Step q d e d') :
      Run q (e :: es) d'

end Ecu.Forward
