import Ecu.Forward.Record

/-!
# Stores of records and the directories they render to

A `Store q` is what a queue is about: files of records (and of the empty lines the save
functions write between them). Each operation on directories has its counterpart on stores, and
rendering commutes with it, so a fact about stores is a fact about the bytes. A `Place` is a
store with one line taken out; `change_cases` and `exists_first` say where an operation acts.
-/

namespace Ecu.Forward

open FirstMatch

inductive Line (q : Queue) where
  | blank
  | record (r : Record q)

variable {q : Queue}

namespace Line

def bytes : Line q → List Byte
  | blank => [newline]
  | record r => r.line

def records : List (Line q) → List (Record q) :=
  List.filterMap fun l => match l with
    | blank => none
    | record r => some r

@[simp] theorem records_nil : records ([] : List (Line q)) = [] := rfl

@[simp] theorem records_blank (ls : List (Line q)) : records (blank :: ls) = records ls := rfl

@[simp] theorem records_record (r : Record q) (ls : List (Line q)) :
    records (record r :: ls) = r :: records ls := rfl

@[simp] theorem records_append (a b : List (Line q)) : records (a ++ b) = records a ++ records b :=
  List.filterMap_append

theorem mem_records {r : Record q} {ls : List (Line q)} : r ∈ records ls ↔ record r ∈ ls := by
  induction ls with
  | nil => simp
  | cons l ls ih => cases l <;> simp [ih]

theorem isLine (l : Line q) : Lines.IsLine newline lineBuffer l.bytes := by
  cases l with
  | blank => exact ⟨⟨[], rfl, List.not_mem_nil⟩, show 1 < lineBuffer by decide⟩
  | record r => exact r.isLine

end Line

/-! ## Separators and keys of a record's line -/

namespace Record

theorem keys_one {r : Record q} {w : Nat} (one : q.widths = [w]) :
    ∃ key, r.keys = [key] ∧ key.length = w := by
  have widths := r.widths
  rw [one] at widths
  match keys : r.keys, widths with
  | [key], widths => exact ⟨key, rfl, by simpa using widths⟩

theorem keys_two {r : Record q} {v w : Nat} (two : q.widths = [v, w]) :
    ∃ id item, r.keys = [id, item] ∧ id.length = v ∧ item.length = w := by
  have widths := r.widths
  rw [two] at widths
  match keys : r.keys, widths with
  | [id, item], widths => exact ⟨id, item, rfl, by simpa using widths⟩

theorem keys_last (r : Record q) {w : Nat} (last : q.widths.getLast? = some w) :
    ∃ front key, r.keys = front ++ [key] ∧ key.length = w := by
  have widths := r.widths
  rcases List.eq_nil_or_concat r.keys with none | ⟨front, key, keys⟩
  · rw [none] at widths
    rw [← widths] at last
    cases last
  · rw [List.concat_eq_append] at keys
    rw [← widths, keys] at last
    exact ⟨front, key, keys, by simpa using last⟩

/-- The key that the change functions compare: the last one. -/
def key (r : Record q) : List Byte :=
  r.keys.getLastD []

@[simp] theorem withFlag_key (r : Record q) (c : Byte) (isFlag : IsFlag c) :
    (r.withFlag c isFlag).key = r.key := rfl

@[simp] theorem withFlag_flag (r : Record q) (c : Byte) (isFlag : IsFlag c) :
    (r.withFlag c isFlag).flag = c := rfl

theorem fromEnd_comma (r : Record q) : fromEnd r.line 3 = some comma :=
  r.fromEnd_line (show r.line = (r.payload ++ r.keys.flatMap (comma :: ·)) ++ comma :: [r.flag, newline] by
    simp [line, tailBytes])

/-- Whatever separator a reader expects before the last key stands there. -/
theorem fromEnd_key (r : Record q) {w : Nat} (last : q.widths.getLast? = some w) :
    fromEnd r.line (w + 4) = some comma := by
  obtain ⟨front, key, keys, width⟩ := r.keys_last last
  rw [show w + 4 = (key ++ [comma, r.flag, newline]).length + 1 by simp [width]]
  have split : r.line = (r.payload ++ front.flatMap (comma :: ·)) ++ comma :: (key ++ [comma, r.flag, newline]) := by
    simp [line, tailBytes, keys]
  exact r.fromEnd_line split

theorem fromEnd_id (r : Record .invProResult) : fromEnd r.line 20 = some comma := by
  obtain ⟨id, item, keys, idLength, itemLength⟩ := r.keys_two rfl
  rw [show 20 = (id ++ comma :: item ++ [comma, r.flag, newline]).length + 1 by
    simp [idLength, itemLength]]
  have split : r.line = r.payload ++ comma :: (id ++ comma :: item ++ [comma, r.flag, newline]) := by
    simp [line, tailBytes, keys]
  exact r.fromEnd_line split

theorem separated_of {r : Record q} {seps : List Nat} (all : ∀ k ∈ seps, fromEnd r.line k = some comma) :
    separated seps r.line = true := by
  simp only [separated, strlen_line, r.long_line, decide_true, Bool.true_and, List.all_eq_true,
    beq_iff_eq]
  exact all

/-- The line of a record passes the separator test of its queue. -/
@[simp] theorem separated_line (r : Record q) : separated q.seps r.line = true := by
  apply separated_of
  intro k mem
  cases q <;> simp only [Queue.seps, List.mem_cons, List.not_mem_nil, or_false] at mem
  case invProResult =>
    rcases mem with rfl | rfl | rfl
    · exact r.fromEnd_comma
    · exact r.fromEnd_key rfl
    · exact r.fromEnd_id
  all_goals
    rcases mem with rfl | rfl
    · exact r.fromEnd_comma
    · exact r.fromEnd_key rfl

/-- The last key is read back at its distance from the end. -/
theorem sliceFromEnd_key (r : Record q) {w : Nat} (last : q.widths.getLast? = some w) :
    sliceFromEnd r.line (w + 3) w = r.key := by
  obtain ⟨front, key, keys, width⟩ := r.keys_last last
  have split : r.line =
      (r.payload ++ front.flatMap (comma :: ·) ++ [comma]) ++ (key ++ [comma, r.flag, newline]) := by
    simp [line, tailBytes, keys]
  have slice := r.sliceFromEnd_line split
  rw [width] at slice
  rw [show (w + 3) = w + [comma, r.flag, newline].length from rfl, slice]
  simp [Record.key, keys]

end Record

@[simp] theorem hits_record (r : Record q) (c : Byte) : hits q.seps c r.line = (r.flag == c) := by
  simp [hits]

/-- An empty line passes no test. -/
@[simp] theorem separated_blank (seps : List Nat) : separated seps [newline] = false := by
  simp [separated, show strlen [newline] = 1 from rfl]

@[simp] theorem hits_blank (seps : List Nat) (c : Byte) : hits seps c [newline] = false := by
  simp [hits]

/-! ## Stores -/

/-- Files of lines by name, in `readdir` order. -/
abbrev Store (q : Queue) := List (List Byte × List (Line q))

namespace Store

def renderFile (ls : List (Line q)) : File :=
  (ls.map Line.bytes).flatten

/-- The directory with these lines in its files. -/
def render (s : Store q) : Dir :=
  s.map fun e => (e.1, renderFile e.2)

def records (s : Store q) : List (Record q) :=
  s.flatMap fun e => Line.records e.2

@[simp] theorem records_nil : records ([] : Store q) = [] := rfl

@[simp] theorem records_cons (e : List Byte × List (Line q)) (s : Store q) :
    records (e :: s) = Line.records e.2 ++ records s := rfl

@[simp] theorem records_append (s t : Store q) : records (s ++ t) = records s ++ records t :=
  List.flatMap_append

theorem render_append (s t : Store q) : render (s ++ t) = render s ++ render t :=
  List.map_append

/-- The readers of the queue take every line of a rendered file whole. -/
@[simp] theorem buffLines_render (ls : List (Line q)) : buffLines (renderFile ls) = ls.map Line.bytes := by
  apply Lines.readLines_flatten
  intro line mem
  obtain ⟨l, -, rfl⟩ := List.mem_map.1 mem
  exact l.isLine

theorem lines_render (s : Store q) :
    (render s).map (fun e => buffLines e.2) = s.map fun e => e.2.map Line.bytes := by
  simp [render, Function.comp_def]

end Store

/-- A store with one line taken out. -/
structure Place (q : Queue) where
  before : Store q
  name : List Byte
  above : List (Line q)
  below : List (Line q)
  after : Store q

namespace Place

/-- The store with `r` at the place. -/
def fill (p : Place q) (r : Record q) : Store q :=
  p.before ++ (p.name, p.above ++ .record r :: p.below) :: p.after

/-- The records a scan meets before the place. -/
def preceding (p : Place q) : List (Record q) :=
  p.before.records ++ Line.records p.above

/-- The records of the same file after the place. -/
def sameFile (p : Place q) : List (Record q) :=
  Line.records p.below

/-- The records of the later files. -/
def laterFiles (p : Place q) : List (Record q) :=
  p.after.records

theorem records_fill (p : Place q) (r : Record q) :
    (p.fill r).records = p.preceding ++ r :: (p.sameFile ++ p.laterFiles) := by
  simp [fill, preceding, sameFile, laterFiles]

theorem mem_fill (p : Place q) (r : Record q) : r ∈ (p.fill r).records := by
  simp [records_fill]

end Place

/-! ## Changing a flag -/

namespace Line

/-- Put the flag on a record that passes `T`. -/
def mark (T : Record q → Bool) (c : Byte) (isFlag : IsFlag c) : Line q → Option (Line q)
  | blank => none
  | record r => if T r then some (record (r.withFlag c isFlag)) else none

theorem mark_none {T : Record q → Bool} {c : Byte} {isFlag : IsFlag c} {ls : List (Line q)} :
    (∀ l ∈ ls, mark T c isFlag l = none) ↔ ∀ r ∈ records ls, T r = false := by
  simp only [mem_records]
  constructor
  · intro none r mem
    have := none _ mem
    simpa [mark] using this
  · intro fails l mem
    cases l with
    | blank => rfl
    | record r => simp [mark, fails r mem]

end Line

namespace Store

variable (T : Record q → Bool) (c : Byte) (isFlag : IsFlag c)

/-- `changeFlag` on stores. -/
def change (s : Store q) : Nat × Store q :=
  match modifyFirst (fun e => (modifyFirst (Line.mark T c isFlag) e.2).map (Prod.mk e.1)) s with
  | some s' => (1, s')
  | none => (0, s)

/-- A change function of the directories does on a rendered store what `change` does on the
store, when its test of a line is the test `T` of the record. -/
theorem changeFlag_render {test : List Byte → Bool} {T : Record q → Bool} {c : Byte} (isFlag : IsFlag c)
    (agree : ∀ r : Record q, test r.line = T r) (blank : test [newline] = false) (s : Store q) :
    changeFlag test c (render s) = ((change T c isFlag s).1, render (change T c isFlag s).2) := by
  have lineAgree (l : Line q) :
      (if test l.bytes then some (putFlag c l.bytes) else none) =
        (Line.mark T c isFlag l).map Line.bytes := by
    cases l with
    | blank => simp [Line.bytes, Line.mark, blank]
    | record r =>
      simp only [Line.bytes, Line.mark, agree]
      cases T r
      · rfl
      · simp [Line.bytes, r.putFlag_line c isFlag]
  have fileAgree (ls : List (Line q)) :
      changeLine test c (renderFile ls) = (modifyFirst (Line.mark T c isFlag) ls).map renderFile := by
    rw [changeLine, buffLines_render,
      modifyFirst_map (g := Line.mark T c isFlag) Line.bytes lineAgree, Option.map_map]
    rfl
  rw [changeFlag, render,
    modifyFirst_map (g := fun e => (modifyFirst (Line.mark T c isFlag) e.2).map (Prod.mk e.1))
      (fun e : List Byte × List (Line q) => (e.1, renderFile e.2))
      (fun e => by simp only [fileAgree, Option.map_map]; rfl), change]
  cases modifyFirst (fun e => (modifyFirst (Line.mark T c isFlag) e.2).map (Prod.mk e.1)) s <;> rfl

theorem mark_file_none {e : List Byte × List (Line q)} :
    (modifyFirst (Line.mark T c isFlag) e.2).map (Prod.mk e.1) = none ↔
      ∀ r ∈ Line.records e.2, T r = false := by
  rw [Option.map_eq_none_iff, modifyFirst_none, Line.mark_none]

variable {T c isFlag}

/-- Where a change acts: nowhere, or on the first record that passes the test. -/
theorem change_cases (isFlag : IsFlag c) (s : Store q) :
    (change T c isFlag s = (0, s) ∧ ∀ r ∈ s.records, T r = false) ∨
      ∃ (p : Place q) (r : Record q), s = p.fill r ∧ T r = true ∧ (∀ x ∈ p.preceding, T x = false) ∧
        change T c isFlag s = (1, p.fill (r.withFlag c isFlag)) := by
  rw [change]
  cases found : modifyFirst (fun e => (modifyFirst (Line.mark T c isFlag) e.2).map (Prod.mk e.1)) s with
  | none =>
    refine Or.inl ⟨rfl, ?_⟩
    intro r mem
    obtain ⟨e, inStore, inFile⟩ := List.mem_flatMap.1 mem
    exact (mark_file_none T c isFlag).1 (modifyFirst_none.1 found e inStore) r inFile
  | some s' =>
    obtain ⟨before, e, e', after, rfl, rfl, file, passed⟩ := modifyFirst_some found
    obtain ⟨ls, line, rfl⟩ := Option.map_eq_some_iff.1 file
    obtain ⟨above, l, l', below, split, rfl, marked, above_passed⟩ := modifyFirst_some line
    cases l with
    | blank => cases marked
    | record r =>
      by_cases hit : T r = true
      · simp only [Line.mark, hit, if_true, Option.some.injEq] at marked
        subst marked
        refine Or.inr ⟨⟨before, e.1, above, below, after⟩, r, ?_, hit, ?_, rfl⟩
        · rw [Place.fill, ← split]
        · intro x mem
          rcases List.mem_append.1 mem with mem | mem
          · obtain ⟨f, inStore, inFile⟩ := List.mem_flatMap.1 mem
            exact (mark_file_none T c isFlag).1 (passed f inStore) x inFile
          · exact Line.mark_none.1 above_passed x mem
      · simp [Line.mark, hit] at marked

/-- The change at a given place, when nothing before it passes the test. -/
theorem change_fill {p : Place q} {r : Record q} (hit : T r = true)
    (passed : ∀ x ∈ p.preceding, T x = false) :
    change T c isFlag (p.fill r) = (1, p.fill (r.withFlag c isFlag)) := by
  have line : modifyFirst (Line.mark T c isFlag) (p.above ++ .record r :: p.below) =
      some (p.above ++ .record (r.withFlag c isFlag) :: p.below) :=
    modifyFirst_hit
      (Line.mark_none.2 fun x mem => passed x (List.mem_append_right _ mem))
      (by simp [Line.mark, hit]) _
  rw [change, Place.fill, modifyFirst_hit (b := (p.name, p.above ++ .record (r.withFlag c isFlag) :: p.below))]
  · rfl
  · intro e mem
    rw [mark_file_none]
    intro x inFile
    exact passed x (List.mem_append_left _ (List.mem_flatMap.2 ⟨e, mem, inFile⟩))
  · simp [line]

/-- The first record with a property, if there is one. -/
theorem exists_first (P : Record q → Bool) (s : Store q) :
    (∀ r ∈ s.records, P r = false) ∨
      ∃ (p : Place q) (r : Record q), s = p.fill r ∧ P r = true ∧ ∀ x ∈ p.preceding, P x = false := by
  rcases change_cases (T := P) (by decide : IsFlag (digit 0)) s with
    ⟨-, none⟩ | ⟨p, r, split, hit, passed, -⟩
  · exact Or.inl none
  · exact Or.inr ⟨p, r, split, hit, passed⟩

end Store

end Ecu.Forward
