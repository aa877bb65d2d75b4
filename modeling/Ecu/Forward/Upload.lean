import Ecu.Forward.Results

/-!
# When the uploads end (`control_client.c`)

The loop that reports the inverter status and the two loops for the results take the first record with flag `'1'`
again and again; what counts is whether its flag is changed in between. A failing send over the wire changes nothing
and tries again, and so does an answer of the wrong format, and `change_statusflag` marks the first record with the
time that was sent, which need not be the one that was sent. Without these the records with flag `'1'` become fewer in
every turn (`Advances`).
-/

namespace Ecu.Forward

open Socket

/-! ## The loop for the status -/

/-- The buffers of `response_inverter_abnormal_status`, and its directory. -/
structure Reporter where
  dir : Dir
  data : List Byte
  time : List Byte

/-- One round of `statusLoop`. -/
def statusTurn (wired : Bool) (ecuId : List Byte) (s : Reporter) (x : Exchange) :
    Option (Attempt Reporter Exchange × Option Reporter) :=
  let out := searchStatusflag s.dir s.data s.time (digit 1)
  if out.ret = 0 then none
  else
    let time := out.keys.getD 0 []
    let round := finishRound wired ecuId s.dir time x
    let after : Reporter := ⟨round.dir, round.leaves.apply out.data, time⟩
    some (⟨s.dir, cstr out.data, x, after⟩, if round.goesOn then some after else none)

/-- The loop makes these rounds. -/
theorem statusLoop_turns (wired : Bool) (ecuId : List Byte) (exchanges : List Exchange) (s : Reporter) :
    statusLoop wired ecuId exchanges s.dir s.data s.time =
      (Loop.turns (statusTurn wired ecuId) exchanges (some s)).map fun a => ⟨a.dir, a.message⟩ := by
  induction exchanges generalizing s with
  | nil => rfl
  | cons x exchanges ih =>
    rw [statusLoop, Loop.turns, statusTurn]
    dsimp only
    split_ifs with ended goes
    · rfl
    · rw [ih ⟨_, _, _⟩]
      rfl
    · cases exchanges <;> rfl

/-- The rounds that change nothing. -/
def Stalls (wired : Bool) (ecuId : List Byte) : Exchange → Prop
  | .sendFails => wired = true
  | .receiveFails => False
  | .answers recvBuffer => msgFormatCheck ecuId recvBuffer < 0

/-- A send that fails over the wire. -/
def Sending.Stalls (o : Sending) : Prop :=
  o.sent = false ∧ o.wired = true

/-! ## Records and their places -/

variable {q : Queue}

/-- The lines of the records in a directory. -/
def recordLines (q : Queue) (d : Dir) : List (List Byte) :=
  (d.flatMap fun e => buffLines e.2).filter (separated q.seps)

/-- The place of the first record with flag `'1'` among them, where the attempt takes it. -/
def Attempt.place {σ ω : Type} (q : Queue) (a : Attempt σ ω) : Nat :=
  (recordLines q a.dir).findIdx (hits q.seps (digit 1))

theorem recordLines_render (s : Store q) : recordLines q s.render = s.records.map Record.line := by
  have file (ls : List (Line q)) : (ls.map Line.bytes).filter (separated q.seps) =
    (Line.records ls).map Record.line := by
    induction ls with
    | nil => rfl
    | cons l ls ih =>
      cases l with
      | blank => rw [List.map_cons, Line.bytes, List.filter_cons_of_neg (by simp), ih, Line.records_blank]
      | record r =>
        rw [List.map_cons, Line.bytes, List.filter_cons_of_pos r.separated_line, ih, Line.records_record, List.map_cons]
  induction s with
  | nil => rfl
  | cons e s ih =>
    rw [recordLines, Store.render, List.map_cons, List.flatMap_cons, List.filter_append, Store.buffLines_render, file,
      Store.records_cons, List.map_append]
    exact congrArg _ ih

/-- The place of the first record with flag `'1'`. -/
def Store.firstUnsent (s : Store q) : Nat :=
  s.records.findIdx fun r => r.flag == digit 1

theorem place_render {σ ω : Type} {a : Attempt σ ω} {s : Store q} (dir : a.dir = s.render) :
    a.place q = s.firstUnsent := by
  rw [Attempt.place, dir, recordLines_render, List.findIdx_map]
  refine congrArg (fun p => List.findIdx p s.records) (funext fun r => ?_)
  exact hits_record r (digit 1)

/-- The key stays, and no flag becomes `'1'`. -/
def Record.Fades (x y : Record q) : Prop :=
  y.key = x.key ∧ (y.flag = digit 1 → x.flag = digit 1)

def Fades (s t : Store q) : Prop :=
  List.Forall₂ Record.Fades s.records t.records

theorem Fades.refl (s : Store q) : Fades s s :=
  List.forall₂_same.2 fun _ _ => ⟨rfl, id⟩

theorem fades_trans {xs ys zs : List (Record q)} (first : List.Forall₂ Record.Fades xs ys)
    (second : List.Forall₂ Record.Fades ys zs) : List.Forall₂ Record.Fades xs zs := by
  induction first generalizing zs with
  | nil => exact second
  | @cons x y xs ys step _ ih =>
    cases second with
    | cons next rest => exact .cons ⟨next.1.trans step.1, fun one => step.2 (next.2 one)⟩ (ih rest)

theorem fades_filter {xs ys : List (Record q)} (fades : List.Forall₂ Record.Fades xs ys) :
    (ys.filter fun r => r.flag == digit 1).length ≤ (xs.filter fun r => r.flag == digit 1).length := by
  induction fades with
  | nil => exact Nat.le_refl 0
  | @cons x y xs ys step _ ih =>
    by_cases one : y.flag = digit 1
    · rw [List.filter_cons_of_pos (by simp [one]), List.filter_cons_of_pos (by simp [step.2 one])]
      exact Nat.succ_le_succ ih
    · rw [List.filter_cons_of_neg (by simp [one])]
      exact ih.trans (List.Sublist.filter _ (List.sublist_cons_self x xs)).length_le

theorem fades_findIdx {xs ys : List (Record q)} (fades : List.Forall₂ Record.Fades xs ys) :
    xs.findIdx (fun r => r.flag == digit 1) ≤ ys.findIdx fun r => r.flag == digit 1 := by
  induction fades with
  | nil => exact Nat.le_refl 0
  | @cons x y xs ys step _ ih =>
    rw [List.findIdx_cons, List.findIdx_cons]
    by_cases one : y.flag = digit 1
    · simp [one, step.2 one]
    · have other : (y.flag == digit 1) = false := by simpa using one
      rw [other]
      cases x.flag == digit 1
      · exact Nat.succ_le_succ ih
      · exact Nat.zero_le _

theorem fades_fill (p : Place q) (r : Record q) {c : Byte} (isFlag : IsFlag c) (other : c ≠ digit 1) :
    Fades (p.fill r) (p.fill (r.withFlag c isFlag)) := by
  have same (xs : List (Record q)) : List.Forall₂ Record.Fades xs xs := List.forall₂_same.2 fun _ _ => ⟨rfl, id⟩
  rw [Fades, Place.records_fill, Place.records_fill]
  exact List.rel_append (same p.preceding) (.cons ⟨rfl, fun one => absurd one other⟩ (same _))

theorem fades_change {T : Record q → Bool} {c : Byte} (isFlag : IsFlag c) (other : c ≠ digit 1) (s : Store q) :
    Fades s (s.change T c isFlag).2 := by
  rcases Store.change_cases (T := T) isFlag s with ⟨unchanged, -⟩ | ⟨p, r, split, -, -, done⟩
  · rw [unchanged]
    exact .refl s
  · rw [done, split]
    exact fades_fill p r isFlag other

/-- The first record with flag `'1'` has lost it. -/
structure Passed (s t : Store q) : Prop where
  fewer : t.unsent.length < s.unsent.length
  later : s.firstUnsent < t.firstUnsent

theorem passed_of_fades {s t : Store q} {p : Place q} {r : Record q} (first : s.FirstWith (digit 1) p r) {c : Byte}
    (isFlag : IsFlag c) (other : c ≠ digit 1) (fades : Fades (p.fill (r.withFlag c isFlag)) t) : Passed s t := by
  have before : ∀ x ∈ p.preceding, (x.flag == digit 1) = false := fun x mem => by simpa using first.passed x mem
  have gone : ((r.withFlag c isFlag).flag == digit 1) = false := by simpa using other
  have one : (r.flag == digit 1) = true := by simpa using first.flag
  have none : p.preceding.filter (fun x => x.flag == digit 1) = [] :=
    List.filter_eq_nil_iff.2 fun x mem => by simp [before x mem]
  have past : p.preceding.findIdx (fun x => x.flag == digit 1) = p.preceding.length :=
    List.findIdx_eq_length_of_false before
  have fewer := fades_filter fades
  have later := fades_findIdx fades
  rw [Place.records_fill] at fewer later
  constructor
  · rw [Store.unsent, Store.unsent, first.split, Place.records_fill, List.filter_append, none,
      List.filter_cons_of_pos (by simpa using one)]
    rw [List.filter_append, none, List.filter_cons_of_neg (by simpa using gone)] at fewer
    exact Nat.lt_succ_of_le fewer
  · rw [Store.firstUnsent, Store.firstUnsent, first.split, Place.records_fill, List.findIdx_append, past,
      if_neg (Nat.lt_irrefl _), List.findIdx_cons, one]
    rw [List.findIdx_append, past, if_neg (Nat.lt_irrefl _), List.findIdx_cons, gone] at later
    simp only [cond_true, cond_false] at later ⊢
    omega

/-- The number of lines with flag `'1'`. -/
def pending (q : Queue) (d : Dir) : Nat :=
  ((recordLines q d).filter (hits q.seps (digit 1))).length

theorem pending_render (s : Store q) : pending q s.render = s.unsent.length := by
  have same : (hits q.seps (digit 1) ∘ Record.line) = fun r : Record q => r.flag == digit 1 :=
    funext fun r => hits_record r (digit 1)
  rw [pending, recordLines_render, List.filter_map, List.length_map, same, Store.unsent]

/-! ## Loops that advance -/

section Advances

variable {σ ω : Type} {turn : σ → ω → Option (Attempt σ ω × Option σ)} {dir : σ → Dir} {At : σ → Store q → Prop}
  {Bad : ω → Prop}

/-- A round takes a record with flag `'1'`, and if the loop goes on the record has lost the flag, unless the outcome is
a bad one. -/
structure Takes (At : σ → Store q → Prop) (Bad : ω → Prop) (store : Store q) (o : ω) (a : Attempt σ ω)
    (next : Option σ) : Prop where
  dir : a.dir = store.render
  outcome : a.outcome = o
  next : ∀ s ∈ next, ∃ store', At s store' ∧ Fades store store' ∧ (¬ Bad o → Passed store store')

/-- Every round does. -/
structure Advances (turn : σ → ω → Option (Attempt σ ω × Option σ)) (dir : σ → Dir) (At : σ → Store q → Prop)
    (Bad : ω → Prop) : Prop where
  stands : ∀ {s : σ} {store : Store q}, At s store → dir s = store.render
  takes : ∀ {s : σ} {store : Store q} {o : ω} {a : Attempt σ ω} {next : Option σ}, At s store →
    turn s o = some (a, next) → Takes At Bad store o a next

/-- After a round that was not a bad one only later records are taken. -/
def NotAgain (q : Queue) (Bad : ω → Prop) (attempts : List (Attempt σ ω)) : Prop :=
  attempts.Pairwise fun a b => ¬ Bad a.outcome → a.place q < b.place q

variable {outcomes : Nat → ω}

theorem Advances.keeps (advances : Advances turn dir At Bad) {s next : σ} {o : ω} {a : Attempt σ ω}
    (stands : ∃ store, At s store) (made : turn s o = some (a, some next)) : ∃ store, At next store := by
  obtain ⟨store, own⟩ := stands
  obtain ⟨store', own', -⟩ := (advances.takes own made).next _ rfl
  exact ⟨store', own'⟩

/-- From a store on, no round takes an earlier record. -/
theorem Advances.later (advances : Advances turn dir At Bad) {store : Store q} {s : σ} (stands : At s store) {k : Nat}
    {b : Attempt σ ω} (makes : Loop.Makes (Loop.fed turn outcomes) (some s, k) b) : store.firstUnsent ≤ b.place q := by
  let Inv : σ → Prop := fun s => ∃ store', At s store' ∧ store.firstUnsent ≤ store'.firstUnsent
  have keeps {s next : σ} {o : ω} {a : Attempt σ ω} (inv : Inv s) (made : turn s o = some (a, some next)) :
    Inv next := by
    obtain ⟨store, own, before⟩ := inv
    obtain ⟨store', own', fades, -⟩ := (advances.takes own made).next _ rfl
    exact ⟨store', own', before.trans (fades_findIdx fades)⟩
  have step {state next : Option σ × Nat} {a : Attempt σ ω} (inv : Loop.Lasts Inv state)
      (made : Loop.fed turn outcomes state = some (a, next)) : Loop.Lasts Inv next ∧ store.firstUnsent ≤ a.place q := by
    refine ⟨Loop.lasts_next keeps inv made, ?_⟩
    obtain ⟨state, k⟩ := state
    cases state with
    | none => cases made
    | some s =>
      obtain ⟨store', own, before⟩ := inv s rfl
      rwa [place_render (advances.takes own (Loop.fed_some made).1).dir]
  exact makes.rule step (Loop.lasts_some ⟨store, stands, Nat.le_refl _⟩)

theorem Advances.ends (advances : Advances turn dir At Bad) (fair : ∀ n, ∃ k, n ≤ k ∧ ¬ Bad (outcomes k))
    {s : σ} {store : Store q} (stands : At s store) :
    ∃ fuel out, Loop.run (Loop.fed turn outcomes) fuel (some s, 0) = some out ∧
      Loop.Lasts (fun s => ∃ store : Store q, At s store) out.2 ∧ NotAgain q Bad out.1 := by
  let Inv : σ → Prop := fun s => ∃ store : Store q, At s store
  have ends : Loop.Ends (Loop.fed turn outcomes) (some s, 0) := by
    refine Loop.fed_ends Inv (fun s => pending q (dir s)) ?_ fair ⟨store, stands⟩ 0
    rintro s next o a ⟨store, own⟩ made
    obtain ⟨store', own', fades, passed⟩ := (advances.takes own made).next _ rfl
    rw [advances.stands own, advances.stands own', pending_render, pending_render]
    exact ⟨⟨store', own'⟩, fades_filter fades, fun good => (passed good).fewer⟩
  obtain ⟨fuel, out, ended⟩ := ends
  have inv : Loop.Lasts Inv (some s, 0) := Loop.lasts_some ⟨store, stands⟩
  refine ⟨fuel, out, ended, Loop.run_last (Loop.lasts_next advances.keeps) inv ended, ?_⟩
  refine Loop.run_pairwise (Loop.Lasts Inv) ?_ (Loop.lasts_next advances.keeps) inv ended
  rintro ⟨state, k⟩ ⟨next, k'⟩ a b inv step makes good
  cases state with
  | none => cases step
  | some s =>
    obtain ⟨made, -⟩ := Loop.fed_some step
    obtain ⟨store, own⟩ := inv s rfl
    have taken := advances.takes own made
    rw [place_render taken.dir]
    cases next with
    | none => cases makes <;> contradiction
    | some s' =>
      obtain ⟨store', own', -, passed⟩ := taken.next _ rfl
      rw [taken.outcome] at good
      exact Nat.lt_of_lt_of_le (passed good).later (advances.later own' makes)

end Advances

/-! ## The status -/

/-- No record with flag `'1'` has one with its time before it. -/
def FirstOfTime (s : Store q) : Prop :=
  s.records.Pairwise fun x r => r.flag = digit 1 → x.key ≠ r.key

theorem fades_mem {xs ys : List (Record q)} (fades : List.Forall₂ Record.Fades xs ys) {y : Record q} (mem : y ∈ ys) :
    ∃ x ∈ xs, x.Fades y := by
  induction fades with
  | nil => cases mem
  | @cons x y' xs ys step _ ih =>
    rcases List.mem_cons.1 mem with rfl | mem
    · exact ⟨x, List.mem_cons_self, step⟩
    · obtain ⟨x', stored, fades⟩ := ih mem
      exact ⟨x', List.mem_cons_of_mem _ stored, fades⟩

theorem FirstOfTime.fades {s t : Store q} (first : FirstOfTime s) (fades : Fades s t) : FirstOfTime t := by
  rw [FirstOfTime] at first ⊢
  rw [Fades] at fades
  generalize s.records = xs, t.records = ys at first fades
  induction fades with
  | nil => exact List.Pairwise.nil
  | @cons x y xs ys step rest ih =>
    obtain ⟨others, first⟩ := List.pairwise_cons.1 first
    refine List.pairwise_cons.2 ⟨?_, ih first⟩
    intro r mem one
    obtain ⟨r', stored, key, flag⟩ := fades_mem rest mem
    rw [step.1, key]
    exact others r' stored (flag one)

/-- The record that was sent is the one that is marked. -/
theorem FirstOfTime.unmarked {s : Store q} (firstOfTime : FirstOfTime s) {p : Place q} {r : Record q}
    (first : s.FirstWith (digit 1) p r) : ∀ x ∈ p.preceding, x.key ≠ r.key := by
  intro x mem
  rw [FirstOfTime, first.split, Place.records_fill] at firstOfTime
  exact (List.pairwise_append.1 firstOfTime).2.2 x mem r List.mem_cons_self first.flag

theorem fades_acknowledge {store : Store .status} {p : Place .status} {r : Record .status}
    (first : store.FirstWith (digit 1) p r) (firstOfTime : FirstOfTime store) {time : List Byte}
    (own : time.take 14 = r.key) (recvBuffer : List Byte) :
    ∃ store', acknowledge store.render time recvBuffer = store'.render ∧
      Fades (p.fill (r.withFlag (digit 2) isFlag_digit.2.2)) store' := by
  have marked : (changeStatusflag store.render time (digit 2)).2 =
    (p.fill (r.withFlag (digit 2) isFlag_digit.2.2)).render := by
    rw [changeStatusflag_render store time isFlag_digit.2.2, own]
    conv_lhs => rw [first.split]
    rw [Store.change_fill]
    · simp
    · intro x mem
      simpa using (firstOfTime.unmarked first x mem).symm
  rw [acknowledge, marked]
  generalize List.range (ackCount recvBuffer).toNat = js
  suffices confirmed : ∀ s : Store .status, ∃ store',
      js.foldl (fun d j => (changeStatusflag d (strncpy (recvBuffer.drop (21 + j * 14)) 14) (digit 0)).2) s.render =
        store'.render ∧ Fades s store' from confirmed _
  induction js with
  | nil => exact fun s => ⟨s, rfl, .refl s⟩
  | cons j js ih =>
    intro s
    rw [List.foldl_cons, changeStatusflag_render s _ isFlag_digit.1]
    obtain ⟨store', confirmed, fades⟩ := ih _
    exact ⟨store', confirmed, fades_trans (fades_change isFlag_digit.1 zero_ne_one s) fades⟩

/-- A round leaves the directory as it was, and then the loop goes on only if the round stalls, or
it takes an answer. -/
theorem finishRound_dir (wired : Bool) (ecuId : List Byte) (d : Dir) (time : List Byte) (x : Exchange) :
    ((finishRound wired ecuId d time x).dir = d ∧
        ((finishRound wired ecuId d time x).goesOn = true → Stalls wired ecuId x)) ∨
      ∃ recvBuffer, (finishRound wired ecuId d time x).dir = acknowledge d time recvBuffer := by
  cases x with
  | sendFails => exact Or.inl ⟨rfl, id⟩
  | receiveFails => exact Or.inl ⟨rfl, fun goes => by cases goes⟩
  | answers recvBuffer =>
    by_cases refused : msgFormatCheck ecuId recvBuffer < 0
    · left
      simp [finishRound, Stalls, refused]
    · right
      refine ⟨recvBuffer, ?_⟩
      rw [finishRound]
      simp only [refused, if_false]
      cases attachedCommand recvBuffer with
      | none => rfl
      | some command =>
        dsimp only
        split_ifs <;> rfl

/-- Where the loop for the status stands. -/
structure Reporter.At (s : Reporter) (store : Store .status) : Prop where
  dir : s.dir = store.render
  first : FirstOfTime store

/-- The caller's buffer gets the time of the record. -/
theorem searchStatusflag_fill {store : Store .status} {p : Place .status} {r : Record .status}
    (first : store.FirstWith (digit 1) p r) (data time : List Byte) :
    (searchStatusflag store.render data time (digit 1)).ret = 1 ∧
      ((searchStatusflag store.render data time (digit 1)).keys.getD 0 []).take 14 = r.key := by
  obtain ⟨flag, out, -⟩ := searchFlag_fill first data [time]
  obtain ⟨key, keys, width⟩ := r.keys_one rfl
  have found : searchStatusflag store.render data time (digit 1) = _ := out
  rw [found]
  refine ⟨rfl, ?_⟩
  simp only [Record.keysInto, Record.key, keys, List.reverse_singleton, List.zipWith_cons_cons, List.zipWith_nil_right,
    List.getD_cons_zero, memcpy]
  exact List.take_left' width

theorem status_advances (wired : Bool) (ecuId : List Byte) :
    Advances (statusTurn wired ecuId) Reporter.dir Reporter.At (Stalls wired ecuId) := by
  refine ⟨Reporter.At.dir, ?_⟩
  intro s store x a next stands turn
  rw [statusTurn, stands.dir] at turn
  rcases exists_firstWith store (digit 1) with none | ⟨p, r, first⟩
  · have out : searchStatusflag store.render s.data s.time (digit 1) = _ := searchFlag_none none s.data [s.time]
    rw [out] at turn
    cases turn
  · obtain ⟨found, own⟩ := searchStatusflag_fill first s.data s.time
    dsimp only at turn
    rw [found, if_neg Nat.one_ne_zero] at turn
    cases turn
    refine ⟨rfl, rfl, ?_⟩
    intro after goes
    obtain ⟨goesOn, same⟩ := Option.ite_none_right_eq_some.1 goes
    rw [← Option.some.inj same]
    rcases finishRound_dir wired ecuId store.render
      ((searchStatusflag store.render s.data s.time (digit 1)).keys.getD 0 []) x with
      ⟨unchanged, stalls⟩ | ⟨recvBuffer, answered⟩
    · exact ⟨store, ⟨unchanged, stands.first⟩, .refl store, fun good => absurd (stalls goesOn) good⟩
    · obtain ⟨store', taken, fades⟩ := fades_acknowledge first stands.first own recvBuffer
      have marked : Fades store (p.fill (r.withFlag (digit 2) isFlag_digit.2.2)) := by
        conv_lhs => rw [first.split]
        exact fades_fill p r isFlag_digit.2.2 (by decide)
      have faded := fades_trans marked fades
      exact ⟨store', ⟨answered.trans taken, stands.first.fades faded⟩, faded,
        fun _ => passed_of_fades first isFlag_digit.2.2 (by decide) fades⟩

/-! ## The results -/

section Loop

variable {message : List Byte → List Byte → List Byte} {change : Dir → List Byte → Byte → Nat × Dir}

/-- Where a loop for results stands: after a message that was not sent `data` holds what is left of it. -/
structure Sender.Stands (s : Sender) (store : Store q) : Prop where
  dir : s.dir = store.render
  item : s.item.drop 3 = [nul]

/-- What a round does, by the record that it finds. -/
theorem resultTurn_found (loop : ResultLoop q message change) (unsent : List Byte → List Byte) {s : Sender}
    {store : Store q} (stands : s.Stands store) {o : Sending} {a : Attempt Sender Sending} {next : Option Sender}
    (turn : resultTurn (q.search s.dir s.data s.item s.inverterId (digit 1)) message change unsent s o =
      some (a, next)) :
    ∃ (p : Place q) (r : Record q) (found : Sender), store.FirstWith (digit 1) p r ∧ found.dir = store.render ∧
      found.item = r.key ++ [nul] ∧ a.dir = store.render ∧ a.outcome = o ∧ a.after = (o.finish change unsent found).1 ∧
      next = if (o.finish change unsent found).2 then some a.after else none := by
  rcases exists_firstWith store (digit 1) with none | ⟨p, r, first⟩
  · rw [stands.dir, search_eq, searchFlag_none none, resultTurn, if_pos rfl] at turn
    cases turn
  · obtain ⟨flag, out, -⟩ := searchFlag_fill first s.data (q.buffers s.item s.inverterId)
    have found : (q.search s.dir s.data s.item s.inverterId (digit 1)).ret ≠ 0 := by
      rw [stands.dir, search_eq, out]
      exact Nat.one_ne_zero
    have item : (q.search s.dir s.data s.item s.inverterId (digit 1)).keys.getD 0 [] = r.key ++ [nul] := by
      rw [stands.dir]
      exact search_item first s.data s.inverterId loop.last stands.item
    rw [resultTurn, if_neg found, item] at turn
    generalize q.search s.dir s.data s.item s.inverterId (digit 1) = search at turn
    cases turn
    let taken : Sender := ⟨s.dir, search.data, r.key ++ [nul], search.keys.getD 1 s.inverterId⟩
    exact ⟨p, r, taken, first, stands.dir, rfl, stands.dir, rfl, rfl, rfl⟩

theorem finish_item (o : Sending) (unsent : List Byte → List Byte) (found : Sender) :
    (o.finish change unsent found).1.item = found.item := by
  rw [Sending.finish]
  split_ifs <;> rfl

theorem item_ends (loop : ResultLoop q message change) (r : Record q) : (r.key ++ [nul]).drop 3 = [nul] :=
  List.drop_left' (key_length_three loop.last)

theorem result_advances (loop : ResultLoop q message change) (unsent : List Byte → List Byte) :
    Advances (fun s o => resultTurn (q.search s.dir s.data s.item s.inverterId (digit 1)) message change unsent s o)
      Sender.dir (@Sender.Stands q) Sending.Stalls := by
  refine ⟨Sender.Stands.dir, ?_⟩
  intro s store o a next stands turn
  obtain ⟨p, r, found, first, own, item, dir, outcome, after, goes⟩ := resultTurn_found loop unsent stands turn
  have marks := loop.marks first
  have faded : Fades store (p.fill r.sent) := by
    conv_lhs => rw [first.split]
    exact fades_fill p r isFlag_digit.1 zero_ne_one
  refine ⟨dir, outcome, ?_⟩
  intro s' mem
  rw [goes, after] at mem
  obtain ⟨goesOn, same⟩ := Option.ite_none_right_eq_some.1 mem
  have ends : s'.item.drop 3 = [nul] := by
    rw [← Option.some.inj same, finish_item, item, item_ends loop r]
  rw [Sending.finish] at goesOn same
  split_ifs at goesOn same with sent wired
  · refine ⟨p.fill r.sent, ⟨?_, ends⟩, faded, fun _ => passed_of_fades first isFlag_digit.1 zero_ne_one (.refl _)⟩
    rw [← marks, ← item, ← own, ← Option.some.inj same]
  · refine ⟨store, ⟨?_, ends⟩, .refl store, fun good => absurd ⟨by simpa using sent, wired⟩ good⟩
    rw [← Option.some.inj same, ← own]

/-- The item that a loop leaves. -/
theorem afterLoop_item (loop : ResultLoop q message change) {unsent : List Byte → List Byte} {outcomes : Nat → Sending}
    {fuel : Nat} {first : Sender} {store : Store q} (stands : first.Stands store) {out : Looped}
    (ended : Loop.run (Loop.fed (fun s o => resultTurn (q.search s.dir s.data s.item s.inverterId (digit 1))
      message change
      unsent s o) outcomes) fuel (some first, 0) = some out)
    (lasts : Loop.Lasts (fun s => ∃ store : Store q, s.Stands store) out.2) :
    (afterLoop first out).item.drop 3 = [nul] := by
  have step {state next : Option Sender × Nat} {a : Attempt Sender Sending}
      (inv : Loop.Lasts (fun s => ∃ store : Store q, s.Stands store) state)
      (made : Loop.fed (fun s o => resultTurn (q.search s.dir s.data s.item s.inverterId (digit 1)) message change
        unsent s o) outcomes state = some (a, next)) :
      Loop.Lasts (fun s => ∃ store : Store q, s.Stands store) next ∧ a.after.item.drop 3 = [nul] := by
    refine ⟨Loop.lasts_next (result_advances loop unsent).keeps inv made, ?_⟩
    obtain ⟨state, k⟩ := state
    cases state with
    | none => cases made
    | some s =>
      obtain ⟨store, own⟩ := inv s rfl
      obtain ⟨p, r, found, -, -, item, -, -, after, -⟩ := resultTurn_found loop unsent own (Loop.fed_some made).1
      rw [after, finish_item, item, item_ends loop r]
  rw [afterLoop]
  cases left : out.2.1 with
  | some s =>
    obtain ⟨store, own⟩ := lasts s left
    exact own.item
  | none =>
    dsimp only
    cases final : out.1.getLast? with
    | none => exact stands.item
    | some a => exact (Loop.run_makes ended a (List.mem_of_getLast? final)).rule step (Loop.lasts_some ⟨store, stands⟩)

end Loop

/-! ## The three loops -/

/-- `response_inverter_abnormal_status` for as long as there are records: its attempts, `none` when
there is no fuel left. -/
def uploadStatus (wired : Bool) (ecuId : List Byte) (exchanges : Nat → Exchange) (fuel : Nat) (invstate : Dir) :
    Option (List (Attempt Reporter Exchange)) :=
  (Loop.run (Loop.fed (statusTurn wired ecuId) exchanges) fuel
    (some ⟨invstate, List.replicate recordBuffer nul, List.replicate 15 nul⟩, 0)).map (·.1)

/-- Its attempts are what is handed over for these exchanges. -/
theorem uploadStatus_messages {wired : Bool} {ecuId : List Byte} {exchanges : Nat → Exchange} {fuel : Nat}
    {invstate : Dir}
    {attempts : List (Attempt Reporter Exchange)} (ended : uploadStatus wired ecuId exchanges fuel invstate =
      some attempts) :
    responseInverterAbnormalStatus wired ecuId ((List.range' 0 fuel).map exchanges) invstate =
      attempts.map fun a => ⟨a.dir, a.message⟩ := by
  obtain ⟨out, ran, rfl⟩ := Option.map_eq_some_iff.1 ended
  rw [← Loop.turns_of_run ran, ← statusLoop_turns]
  rfl

/-- Where failing sends over the wire do not go on for ever, nor for the status answers of the wrong
format, and no status with flag `'1'` has one with its time before it, the loops end, and a record
that was taken is not taken again. -/
theorem uploads_progress (wired : Bool) (ecuId : List Byte) {exchanges : Nat → Exchange}
    {proOutcomes invOutcomes : Nat → Sending} (answered : ∀ n, ∃ k, n ≤ k ∧ ¬ Stalls wired ecuId (exchanges k))
    (proSent : ∀ n, ∃ k, n ≤ k ∧ ¬ (proOutcomes k).Stalls) (invSent : ∀ n, ∃ k, n ≤ k ∧ ¬ (invOutcomes k).Stalls)
    {invstate : Store .status} (firstOfTime : FirstOfTime invstate) (procRes : Store .proResult)
    (iprocres : Store .invProResult) :
    (∃ fuel attempts, uploadStatus wired ecuId exchanges fuel invstate.render = some attempts ∧
      NotAgain .status (Stalls wired ecuId) attempts) ∧
    ∃ fuel out, responseProcessResult ecuId proOutcomes invOutcomes fuel procRes.render iprocres.render = some out ∧
      NotAgain .proResult Sending.Stalls out.1.attempts ∧ NotAgain .invProResult Sending.Stalls out.2.attempts := by
  constructor
  · have stands : Reporter.At ⟨invstate.render, List.replicate recordBuffer nul, List.replicate 15 nul⟩ invstate :=
      ⟨rfl, firstOfTime⟩
    obtain ⟨fuel, out, ended, -, notAgain⟩ := (status_advances wired ecuId).ends answered stands
    refine ⟨fuel, out.1, ?_, notAgain⟩
    rw [uploadStatus, ended]
    rfl
  · let first : Sender := ⟨procRes.render, List.replicate recordBuffer nul, List.replicate 4 nul, List.replicate 13 nul⟩
    have stands : first.Stands procRes := ⟨rfl, rfl⟩
    obtain ⟨fuel, out, ended, lasts, notAgain⟩ := (result_advances proResult_loop (sendSocket false)).ends
      proSent stands
    let second : Sender := { afterLoop first out with dir := iprocres.render }
    have stands' : second.Stands iprocres := ⟨rfl, afterLoop_item proResult_loop stands ended lasts⟩
    obtain ⟨fuel', out', ended', -, notAgain'⟩ := (result_advances (invProResult_loop ecuId) id).ends invSent stands'
    have ran : Loop.run (Loop.fed proResultTurn proOutcomes) (max fuel fuel') (some first, 0) = some out :=
      Loop.run_mono (Nat.le_max_left _ _) ended
    have ran' : Loop.run (Loop.fed (invProResultTurn ecuId) invOutcomes) (max fuel fuel') (some second, 0) =
      some out' :=
      Loop.run_mono (Nat.le_max_right _ _) ended'
    refine ⟨max fuel fuel', (⟨out.1, deleteProResultFlag0 (afterLoop first out).dir⟩,
      ⟨out'.1, deleteInvProResultFlag0 (afterLoop second out').dir⟩), ?_, notAgain, notAgain'⟩
    rw [responseProcessResult]
    dsimp only
    rw [ran, Option.bind_some, ran']
    rfl

/-- The first report is refused once, and acknowledged; one result is sent at the second try. -/
theorem uploads_progress_sample :
    (∃ fuel attempts, uploadStatus true (str "203000000001")
        (fun k => if k = 0 then .sendFails else .answers (str "APS1300024A123AAA0000END")) fuel
        (sampleReports (q := .status) rfl).render = some attempts ∧
      NotAgain .status (Stalls true (str "203000000001")) attempts) ∧
    ∃ fuel out, responseProcessResult (str "203000000001") (fun k => ⟨true, k != 0⟩) (fun _ => ⟨false, false⟩) fuel
        twoResults.render (Store.render ([] : Store .invProResult)) = some out ∧
      NotAgain .proResult Sending.Stalls out.1.attempts ∧ NotAgain .invProResult Sending.Stalls out.2.attempts := by
  refine uploads_progress true (str "203000000001") ?_ ?_ ?_ ?_ twoResults []
  · intro n
    refine ⟨n + 1, Nat.le_succ n, ?_⟩
    show ¬ msgFormatCheck (str "203000000001") (str "APS1300024A123AAA0000END") < 0
    decide +kernel
  · exact fun n => ⟨n + 1, Nat.le_succ n, fun stalls => by cases stalls.1⟩
  · exact fun n => ⟨n, Nat.le_refl n, fun stalls => by cases stalls.2⟩
  · rw [FirstOfTime]
    decide +kernel

/-! ## Rounds that go on for ever -/

theorem finishRound_stalls {wired : Bool} {ecuId : List Byte} {x : Exchange} (stalls : Stalls wired ecuId x) (d : Dir)
    (time : List Byte) :
    (finishRound wired ecuId d time x).dir = d ∧ (finishRound wired ecuId d time x).goesOn = true := by
  cases x with
  | sendFails => exact ⟨rfl, stalls⟩
  | receiveFails => cases stalls
  | answers recvBuffer =>
    have refused : msgFormatCheck ecuId recvBuffer < 0 := stalls
    rw [finishRound]
    simp [refused]

/-- With an unsent status, exchanges that all fail keep the loop going. -/
theorem uploadStatus_stalls {wired : Bool} {ecuId : List Byte} {exchanges : Nat → Exchange}
    (stalls : ∀ k, Stalls wired ecuId (exchanges k)) {invstate : Store .status}
      (unsent : ∃ r ∈ invstate.records, r.flag = digit 1)
    (fuel : Nat) : uploadStatus wired ecuId exchanges fuel invstate.render = none := by
  obtain ⟨r, stored, flag⟩ := unsent
  obtain ⟨p, r, first⟩ := (exists_firstWith invstate (digit 1)).resolve_left fun none => none r stored flag
  have stays {s : Reporter} {x : Exchange} (stands : s.dir = invstate.render) (stalls : Stalls wired ecuId x) :
      ∃ a next, statusTurn wired ecuId s x = some (a, some next) ∧ next.dir = invstate.render := by
    obtain ⟨found, -⟩ := searchStatusflag_fill first s.data s.time
    have round := finishRound_stalls stalls invstate.render
    rw [statusTurn, stands]
    dsimp only
    rw [found, if_neg Nat.one_ne_zero, (round _).2, if_pos rfl]
    exact ⟨_, _, rfl, (round _).1⟩
  rw [uploadStatus, Option.map_eq_none_iff, Option.eq_none_iff_forall_ne_some]
  intro out ended
  exact Loop.not_ends_of_bad stays stalls rfl 0 ⟨fuel, out, ended⟩

/-- Sends that fail over the wire. -/
theorem uploadStatus_unsent :
    ¬ ∃ fuel attempts, uploadStatus true (str "203000000001") (fun _ => .sendFails) fuel
      (sampleReports (q := .status) rfl).render = some attempts := by
  rintro ⟨fuel, attempts, ended⟩
  have fails : ∀ _ : Nat, Stalls true (str "203000000001") .sendFails := fun _ => rfl
  rw [uploadStatus_stalls fails] at ended
  · cases ended
  · exact ⟨_, List.mem_cons_self, rfl⟩

end Ecu.Forward
