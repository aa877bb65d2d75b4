import Ecu.Forward.Store

/-!
# What a search finds

Each `search_*flag` function runs three scans with a copy of the separator test in each: for the
record itself, over the rest of its file, over the later files. `searchFlag_fill` says what the
common body returns on a store, whatever the separators of the second and third scan are.
`SearchLaw` is what the functions are for; two of the four copies test the separators of another
queue in one scan, and `search_law_iff` says on which stores that is without effect.
-/

namespace Ecu.Forward

open FirstMatch

variable {q : Queue}

/-- The place of the first record with the flag. -/
structure Store.FirstWith (s : Store q) (c : Byte) (p : Place q) (r : Record q) : Prop where
  split : s = p.fill r
  flag : r.flag = c
  passed : ∀ x ∈ p.preceding, x.flag ≠ c

/-- The key buffers of the caller with the keys of the record in them, last key first. -/
def Record.keysInto (r : Record q) (buffers : List (List Byte)) : List (List Byte) :=
  List.zipWith memcpy buffers r.keys.reverse

/-! ## Scans of a store -/

namespace Line

theorem any_hits {seps : List Nat} {c : Byte} {ls : List (Line q)} :
    (ls.map bytes).any (hits seps c) = true ↔
      ∃ x ∈ records ls, x.flag = c ∧ separated seps x.line = true := by
  simp only [List.any_map, List.any_eq_true, mem_records, Function.comp_apply]
  constructor
  · rintro ⟨l, mem, hit⟩
    cases l with
    | blank => simp [bytes] at hit
    | record x =>
      simp only [bytes, hits, Record.fromEnd_flag, Bool.and_eq_true, beq_iff_eq,
        Option.some.injEq] at hit
      exact ⟨x, mem, hit.2, hit.1⟩
  · rintro ⟨x, mem, flag, passes⟩
    exact ⟨.record x, mem, by simp [bytes, hits, passes, flag]⟩

/-- The first separators of a queue are on every line, so the first scan tests the flag alone. -/
theorem splitFirst_none {c : Byte} {ls : List (Line q)} (none : ∀ x ∈ records ls, x.flag ≠ c) :
    splitFirst (hits q.seps c) (ls.map bytes) = Option.none := by
  apply FirstMatch.splitFirst_none.2
  intro line mem
  obtain ⟨l, inFile, rfl⟩ := List.mem_map.1 mem
  cases l with
  | blank => exact hits_blank _ _
  | record x =>
    rw [bytes, hits_record, beq_eq_false_iff_ne]
    exact none x (mem_records.2 inFile)

theorem splitFirst_fill {c : Byte} {above below : List (Line q)} {r : Record q} (flag : r.flag = c)
    (passed : ∀ x ∈ records above, x.flag ≠ c) :
    splitFirst (hits q.seps c) ((above ++ .record r :: below).map bytes) =
      some (r.line, below.map bytes) := by
  rw [List.map_append, List.map_cons]
  apply splitFirst_hit
  · exact FirstMatch.splitFirst_none.1 (splitFirst_none passed)
  · simp [bytes, flag]

end Line

namespace Store

/-- No record with the flag: the scan ends without a hit. -/
theorem searchScan_none {params : SearchParams} (own : params.first = q.seps) {c : Byte} {s : Store q}
    (none : ∀ r ∈ s.records, r.flag ≠ c) :
    searchScan params c (s.map fun e => e.2.map Line.bytes) = Option.none := by
  induction s with
  | nil => rfl
  | cons e s ih =>
    rw [List.map_cons, searchScan, own,
      Line.splitFirst_none fun x mem => none x (List.mem_append_left _ mem)]
    exact ih fun r mem => none r (List.mem_append_right _ mem)

theorem searchScan_before {params : SearchParams} (own : params.first = q.seps) {c : Byte}
    {before : Store q} (passed : ∀ r ∈ before.records, r.flag ≠ c) (files : List (List (List Byte))) :
    searchScan params c ((before.map fun e => e.2.map Line.bytes) ++ files) = searchScan params c files := by
  induction before with
  | nil => rfl
  | cons e before ih =>
    rw [List.map_cons, List.cons_append, searchScan, own,
      Line.splitFirst_none fun x mem => passed x (List.mem_append_left _ mem)]
    exact ih fun r mem => passed r (List.mem_append_right _ mem)

/-- A further record that the second or the third scan sees. -/
def Further (params : SearchParams) (c : Byte) (p : Place q) : Prop :=
  (∃ x ∈ p.sameFile, x.flag = c ∧ separated params.same x.line = true) ∨
    ∃ x ∈ p.laterFiles, x.flag = c ∧ separated params.later x.line = true

theorem any_later {seps : List Nat} {c : Byte} {s : Store q} :
    (s.map fun e => e.2.map Line.bytes).any (fun f => f.any (hits seps c)) = true ↔
      ∃ x ∈ s.records, x.flag = c ∧ separated seps x.line = true := by
  rw [List.any_map, List.any_eq_true]
  constructor
  · rintro ⟨e, inStore, some⟩
    obtain ⟨x, inFile, found⟩ := Line.any_hits.1 some
    exact ⟨x, List.mem_flatMap.2 ⟨e, inStore, inFile⟩, found⟩
  · rintro ⟨x, mem, found⟩
    obtain ⟨e, inStore, inFile⟩ := List.mem_flatMap.1 mem
    exact ⟨e, inStore, Line.any_hits.2 ⟨x, inFile, found⟩⟩

theorem searchScan_fill {params : SearchParams} (own : params.first = q.seps) {c : Byte} {s : Store q}
    {p : Place q} {r : Record q} (first : s.FirstWith c p r) :
    ∃ flag, searchScan params c (s.map fun e => e.2.map Line.bytes) = some (r.line, flag) ∧
      (flag = 1 ↔ Further params c p) := by
  refine ⟨if (p.below.map Line.bytes).any (hits params.same c) ||
    (p.after.map fun e => e.2.map Line.bytes).any (fun f => f.any (hits params.later c))
    then 1 else 0, ?_, ?_⟩
  · rw [first.split, Place.fill, List.map_append, List.map_cons,
      searchScan_before own fun x mem => first.passed x (List.mem_append_left _ mem), searchScan, own,
      Line.splitFirst_fill first.flag fun x mem => first.passed x (List.mem_append_right _ mem)]
  · rw [Further, Place.sameFile, Place.laterFiles, ← Line.any_hits, ← any_later, ← Bool.or_eq_true]
    split
    · exact iff_of_true rfl ‹_›
    · exact iff_of_false (by decide) ‹_›

end Store

/-! ## The search functions -/

/-- The search function of a queue; `id` is used by the last one only. -/
def Queue.search (q : Queue) (d : Dir) (data key id : List Byte) (c : Byte) : SearchOut :=
  match q with
  | .record => searchReadflag d data key c
  | .status => searchStatusflag d data key c
  | .proResult => searchProResultFlag d data key c
  | .invProResult => searchInvProResultFlag d data key id c

/-- The offsets of the search function of a queue, as its definition gives them. -/
def Queue.searchParams : Queue → SearchParams
  | .record | .status => { first := [3, 18], same := [3, 18], later := [3, 18], cut := 18, keys := [(17, 14)] }
  | .proResult => { first := [3, 7], same := [3, 7], later := [3, 18], cut := 7, keys := [(6, 3)] }
  | .invProResult =>
    { first := [3, 7, 20], same := [3, 18], later := [3, 7, 20], cut := 20, keys := [(6, 3), (19, 12)] }

theorem searchParams_first (q : Queue) : q.searchParams.first = q.seps := by
  cases q <;> rfl

theorem searchParams_cut (q : Queue) : q.searchParams.cut = q.tail := by
  cases q <;> rfl

/-- The key slices are the keys of the record. -/
theorem slices_keys (r : Record q) :
    q.searchParams.keys.map (fun k => sliceFromEnd r.line k.1 k.2) = r.keys.reverse := by
  cases q with
  | record | status | proResult =>
    obtain ⟨key, keys, width⟩ := r.keys_one rfl
    have slice := r.sliceFromEnd_key rfl
    rw [Record.key, keys] at slice
    rw [keys]
    simpa [Queue.searchParams] using slice
  | invProResult =>
    obtain ⟨id, item, keys, idWidth, itemWidth⟩ := r.keys_two rfl
    have slice := r.sliceFromEnd_key rfl
    have split : r.line = (r.payload ++ [comma]) ++ (id ++ (comma :: item ++ [comma, r.flag, newline])) := by
      simp [Record.line, Record.tailBytes, keys]
    have idSlice := r.sliceFromEnd_line split
    rw [Record.key, keys] at slice
    simp only [List.length_append, List.length_cons, List.length_nil, idWidth, itemWidth] at idSlice
    rw [keys]
    simp only [Queue.searchParams, List.map_cons, List.map_nil, List.reverse_cons, List.reverse_nil,
      List.nil_append, List.singleton_append, List.cons.injEq, and_true]
    exact ⟨slice, idSlice⟩

theorem zipWith_slices (r : Record q) (buffers : List (List Byte)) :
    List.zipWith (fun key k => memcpy key (sliceFromEnd r.line k.1 k.2)) buffers q.searchParams.keys =
      r.keysInto buffers := by
  rw [Record.keysInto, ← slices_keys, List.zipWith_map_right]

/-- The common body on a store with a record of the flag. -/
theorem searchFlag_fill {s : Store q} {c : Byte} {p : Place q} {r : Record q} (first : s.FirstWith c p r)
    (data : List Byte) (buffers : List (List Byte)) :
    ∃ flag, searchFlag q.searchParams s.render data buffers c =
        { ret := 1
          data := memcpy (memset data nul 4) (r.payload ++ [newline])
          keys := r.keysInto buffers
          flag := flag } ∧
      (flag = 1 ↔ Store.Further q.searchParams c p) := by
  obtain ⟨flag, scan, further⟩ := Store.searchScan_fill (searchParams_first q) first
  refine ⟨flag, ?_, further⟩
  have payload : r.line.take (strlen r.line - q.searchParams.cut) = r.payload := by
    rw [Record.strlen_line, Record.line_length, searchParams_cut, Nat.add_sub_cancel, Record.line,
      List.take_left]
  rw [searchFlag, Store.lines_render, scan]
  simp only [payload, zipWith_slices]

/-- The common body on a store without one. -/
theorem searchFlag_none {s : Store q} {c : Byte} (none : ∀ r ∈ s.records, r.flag ≠ c)
    (data : List Byte) (buffers : List (List Byte)) :
    searchFlag q.searchParams s.render data buffers c =
      { ret := 0, data := memset data nul 4, keys := buffers, flag := 0 } := by
  rw [searchFlag, Store.lines_render, Store.searchScan_none (searchParams_first q) none]

/-- The key buffers that the search function of the queue is given. -/
def Queue.buffers (q : Queue) (key id : List Byte) : List (List Byte) :=
  match q with
  | .invProResult => [key, id]
  | _ => [key]

theorem search_eq (q : Queue) (d : Dir) (data key id : List Byte) (c : Byte) :
    q.search d data key id c = searchFlag q.searchParams d data (q.buffers key id) c := by
  cases q <;> rfl

/-! ## The law -/

/-- What a search for the flag `c` is to return on a store: 1 exactly when a record has the flag;
then the payload and the key of the first such record, and whether there is a further one. -/
structure SearchLaw (s : Store q) (c : Byte) (data key id : List Byte) : Prop where
  ret : (q.search s.render data key id c).ret = if ∃ r ∈ s.records, r.flag = c then 1 else 0
  payload : ∀ p r, s.FirstWith c p r →
    (q.search s.render data key id c).data = memcpy (memset data nul 4) (r.payload ++ [newline])
  keys : ∀ p r, s.FirstWith c p r →
    (q.search s.render data key id c).keys = r.keysInto (q.buffers key id)
  further : ∀ p r, s.FirstWith c p r →
    ((q.search s.render data key id c).flag = 1 ↔ ∃ x ∈ p.sameFile ++ p.laterFiles, x.flag = c)

/-- The scans with separators of another queue overlook nothing that decides the outcome. A line
passes their test when it has a comma 18 before its end: in the payload of a process result, as
the second character of the id of an inverter process result. -/
def SearchClear (s : Store q) (c : Byte) : Prop :=
  ∀ p r, s.FirstWith c p r →
    match q with
    | .record | .status => True
    | .proResult => (∀ x ∈ p.sameFile, x.flag ≠ c) → (∃ x ∈ p.laterFiles, x.flag = c) →
        ∃ x ∈ p.laterFiles, x.flag = c ∧ fromEnd x.line 18 = some comma
    | .invProResult => (∀ x ∈ p.laterFiles, x.flag ≠ c) → (∃ x ∈ p.sameFile, x.flag = c) →
        ∃ x ∈ p.sameFile, x.flag = c ∧ fromEnd x.line 18 = some comma

theorem separated_record_line {x : Record q} :
    separated [3, 18] x.line = true ↔ fromEnd x.line 18 = some comma := by
  simp [separated, x.long_line, x.fromEnd_comma]

/-- The first record with a flag, if there is one. -/
theorem exists_firstWith (s : Store q) (c : Byte) :
    (∀ r ∈ s.records, r.flag ≠ c) ∨ ∃ p r, s.FirstWith c p r := by
  rcases Store.exists_first (fun r : Record q => r.flag == c) s with none | ⟨p, r, split, hit, passed⟩
  · exact Or.inl fun r mem => by simpa using none r mem
  · exact Or.inr ⟨p, r, split, by simpa using hit, fun x mem => by simpa using passed x mem⟩

/-- Everything but `*flag` obeys the law on every store. -/
theorem search_law_of_further {s : Store q} {c : Byte} {data key id : List Byte}
    (further : ∀ p r, s.FirstWith c p r →
      (Store.Further q.searchParams c p ↔ ∃ x ∈ p.sameFile ++ p.laterFiles, x.flag = c)) :
    SearchLaw s c data key id := by
  refine ⟨?_, ?_, ?_, ?_⟩
  · rcases exists_firstWith s c with none | ⟨p, r, first⟩
    · rw [search_eq, searchFlag_none none, if_neg fun ⟨r, mem, flag⟩ => none r mem flag]
    · obtain ⟨flag, out, -⟩ := searchFlag_fill first data (q.buffers key id)
      rw [search_eq, out, if_pos ⟨r, first.split ▸ p.mem_fill r, first.flag⟩]
  · intro p r first
    obtain ⟨flag, out, -⟩ := searchFlag_fill first data (q.buffers key id)
    rw [search_eq, out]
  · intro p r first
    obtain ⟨flag, out, -⟩ := searchFlag_fill first data (q.buffers key id)
    rw [search_eq, out]
  · intro p r first
    obtain ⟨flag, out, iff⟩ := searchFlag_fill first data (q.buffers key id)
    rw [search_eq, out]
    exact iff.trans (further p r first)

/-- What the two later scans see, queue by queue. -/
theorem further_iff {c : Byte} {p : Place q} :
    Store.Further q.searchParams c p ↔
      (∃ x ∈ p.sameFile, x.flag = c ∧ (q = .invProResult → fromEnd x.line 18 = some comma)) ∨
        ∃ x ∈ p.laterFiles, x.flag = c ∧ (q = .proResult → fromEnd x.line 18 = some comma) := by
  have own (x : Record q) : separated q.seps x.line = true := x.separated_line
  cases q <;> simp [Store.Further, Queue.searchParams, ← separated_record_line] <;>
    simp [Queue.seps] at own <;> simp [own]

/-- A process result of command 115 as `save_process_result` stores it. -/
def sampleResult : Record .proResult where
  payload := str "APS13AAA55A115AAA0END"
  keys := [str "115"]
  flag := digit 1
  payloadText := by decide
  widths := by decide
  keysText := by decide
  isFlag := isFlag_one
  long := by decide
  fits := by decide

end Ecu.Forward
