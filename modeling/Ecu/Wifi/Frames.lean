import Ecu.Wifi.Pending
import Ecu.Lib.Decimal

/-!
# The frames of sockets A and C

`framing` states both directions. In every run with fewer than 2048 bytes pending, a packet of socket A or C stands at
the head of its own piece of the received stream. A well-formed frame that arrives on an idle parser is handed over
whatever the calls see of it, unless the timer resets the parser in between.
-/

namespace Ecu.Wifi

open Usart

/-! ## Well-formed frames -/

def fieldWidth : Channel → Nat
  | .c => 5
  | _ => 4

/-- The characters of the length. -/
def lengthField (ch : Channel) (f : List Byte) : List Byte :=
  ((unpadded ch f).drop 14).take (fieldWidth ch)

structure WellFormed (ch : Channel) (f : List Byte) : Prop where
  head : f[0]? = some (header ch)
  aps : str "APS" <+: f.drop 9
  width : (lengthField ch f).length = fieldWidth ch
  digits : ∀ b ∈ lengthField ch f, Decimal.IsDigit b
  size : Decimal.value (lengthField ch f) + 9 = f.length
  tail : str "END" <:+ f

section Digits

variable {g : Nat → Byte}

theorem digit_toNat {b : Byte} (isDigit : Decimal.IsDigit b) : 48 ≤ b.toNat ∧ b.toNat ≤ 57 :=
  ⟨UInt8.le_iff_toNat_le.1 isDigit.1, UInt8.le_iff_toNat_le.1 isDigit.2⟩

theorem value_four (digits : ∀ b ∈ (List.range 4).map g, Decimal.IsDigit b) :
    digitAt g 0 * 1000 + digitAt g 1 * 100 + digitAt g 2 * 10 + digitAt g 3 = Decimal.value ((List.range 4).map g) := by
  have at' (i : Nat) (small : i < 4) : 48 ≤ (g i).toNat :=
    (digit_toNat (digits _ (List.mem_map_of_mem (List.mem_range.2 small)))).1
  have h0 := at' 0 (by omega)
  have h1 := at' 1 (by omega)
  have h2 := at' 2 (by omega)
  have h3 := at' 3 (by omega)
  simp only [Decimal.value, digitAt, List.range_succ, List.range_zero, List.nil_append, List.map_append, List.map_cons,
    List.map_nil, List.foldl_append, List.foldl_cons, List.foldl_nil]
  omega

theorem value_five (digits : ∀ b ∈ (List.range 5).map g, Decimal.IsDigit b) :
    digitAt g 0 * 10000 + digitAt g 1 * 1000 + digitAt g 2 * 100 + digitAt g 3 * 10 + digitAt g 4 =
      Decimal.value ((List.range 5).map g) := by
  have at' (i : Nat) (small : i < 5) : 48 ≤ (g i).toNat :=
    (digit_toNat (digits _ (List.mem_map_of_mem (List.mem_range.2 small)))).1
  have h0 := at' 0 (by omega)
  have h1 := at' 1 (by omega)
  have h2 := at' 2 (by omega)
  have h3 := at' 3 (by omega)
  have h4 := at' 4 (by omega)
  simp only [Decimal.value, digitAt, List.range_succ, List.range_zero, List.nil_append, List.map_append, List.map_cons,
    List.map_nil, List.foldl_append, List.foldl_cons, List.foldl_nil]
  omega

end Digits

theorem ushort_of_lt {n : Nat} (small : n < 65536) : ushort n = n := by
  unfold ushort
  omega

section WellFormed

variable {ch : Channel} {f : List Byte}

theorem WellFormed.field_inside (wellFormed : WellFormed ch f) : 14 + fieldWidth ch ≤ f.length := by
  have width := wellFormed.width
  rw [lengthField, List.length_take, List.length_drop, unpadded_length] at width
  have positive : 4 ≤ fieldWidth ch := by cases ch <;> decide
  omega

theorem WellFormed.field_eq (wellFormed : WellFormed ch f) :
    lengthField ch f = (List.range (fieldWidth ch)).map (bytesAt (unpadded ch f) 14) := by
  rw [lengthField, map_range_bytesAt]
  rw [unpadded_length]
  exact wellFormed.field_inside

/-- A well-formed frame is as long as the parser finds it. -/
theorem WellFormed.packLenOf_eq (wellFormed : WellFormed ch f) (notB : ch ≠ .b) (short : f.length < usartRecLen) :
    packLenOf ch f = f.length := by
  have room : f.length < 2048 := short
  have inside := wellFormed.field_inside
  have digits := wellFormed.digits
  have size := wellFormed.size
  rw [wellFormed.field_eq] at digits size
  cases ch with
  | b => contradiction
  | a =>
    have value : Decimal.value ((List.range 4).map (bytesAt f 14)) + 9 = f.length := size
    have length : packetlenA (bytesAt f 14) = Decimal.value ((List.range 4).map (bytesAt f 14)) := by
      have read := value_four (show ∀ b ∈ (List.range 4).map (bytesAt f 14), Decimal.IsDigit b from digits)
      rw [packetlenA, read, ushort_of_lt (by omega)]
    rw [packLenOf, length]
    unfold ushort
    omega
  | c =>
    have padding : (List.range 5).map (bytesAt (unpadded .c f) 14) = (List.range 5).map (unpad (bytesAt f 14)) := by
      refine List.map_congr_left fun i mem => ?_
      have small := List.mem_range.1 mem
      have width : fieldWidth .c = 5 := rfl
      rw [bytesAt, unpadded_getD (by omega), unpad, bytesAt]
      simp only [small, true_and, show 14 ≤ 14 + i ∧ 14 + i < 19 by omega]
    have value : Decimal.value ((List.range 5).map (unpad (bytesAt f 14))) + 9 = f.length := padding ▸ size
    have length : packetlenC (bytesAt f 14) = Decimal.value ((List.range 5).map (unpad (bytesAt f 14))) := by
      have read := value_five (padding ▸ digits : ∀ b ∈ (List.range 5).map (unpad (bytesAt f 14)), Decimal.IsDigit b)
      rw [packetlenC, read, ushort_of_lt (by omega)]
    rw [packLenOf, length]
    unfold ushort
    omega

theorem WellFormed.measured (wellFormed : WellFormed ch f) (notB : ch ≠ .b) : lenEnd ch < f.length := by
  have inside := wellFormed.field_inside
  have past : lenEnd ch = 14 + fieldWidth ch := by cases ch <;> first | contradiction | rfl
  have positive : 4 ≤ fieldWidth ch := by cases ch <;> decide
  refine Nat.lt_of_le_of_ne (past ▸ inside) fun short => ?_
  -- `END` would reach into the length: its last letter would be the last digit.
  obtain ⟨body, rfl⟩ := wellFormed.tail
  have three : (str "END").length = 3 := rfl
  rw [List.length_append, three] at short
  have last : (body ++ str "END").getD (14 + (fieldWidth ch - 1)) nul = 0x44 := by
    rw [List.getD_append_right _ _ _ _ (by omega), show 14 + (fieldWidth ch - 1) - body.length = 2 by omega]
    rfl
  have field := wellFormed.digits (bytesAt (unpadded ch (body ++ str "END")) 14 (fieldWidth ch - 1)) (by
    rw [wellFormed.field_eq]
    exact List.mem_map_of_mem (List.mem_range.2 (by omega)))
  rw [bytesAt, unpadded_plain (by omega) (by rw [last]; decide), last] at field
  exact absurd field (by decide)

theorem WellFormed.frames (wellFormed : WellFormed ch f) (notB : ch ≠ .b) (short : f.length < usartRecLen) :
    Frames ch f := by
  have size := wellFormed.packLenOf_eq notB short
  refine ⟨wellFormed.head, wellFormed.aps, wellFormed.measured notB, Nat.le_of_eq size, ?_⟩
  rw [size]
  obtain ⟨body, rfl⟩ := wellFormed.tail
  have three : (str "END").length = 3 := rfl
  have whole : (body ++ str "END").drop ((body ++ str "END").length - 3) = str "END" := by
    rw [List.length_append, three, Nat.add_sub_cancel, List.drop_left]
  exact ⟨[], by rw [List.append_nil, whole]⟩

end WellFormed

/-! ## A frame on its way -/

/-- A frame of socket A or C that fills its length and fits the receive buffer. -/
structure Complete (ch : Channel) (f : List Byte) : Prop where
  notB : ch ≠ .b
  frames : Frames ch f
  size : packLenOf ch f = f.length
  short : f.length < usartRecLen

theorem WellFormed.complete {ch : Channel} {f : List Byte} (wellFormed : WellFormed ch f) (notB : ch ≠ .b)
    (short : f.length < usartRecLen) : Complete ch f :=
  ⟨notB, wellFormed.frames notB short, wellFormed.packLenOf_eq notB short, short⟩

theorem header_inj {ch ch' : Channel} (same : header ch = header ch') : ch = ch' := by
  cases ch <;> cases ch' <;> first | rfl | exact absurd same (by decide)

theorem prefix_getElem? {v f : List Byte} (pre : v <+: f) {i : Nat} {x : Byte} (there : v[i]? = some x) :
    f[i]? = some x := by
  obtain ⟨w, rfl⟩ := pre
  rw [List.getElem?_append_left (List.getElem?_eq_some_iff.1 there).1, there]

theorem getElem?_drop_prefix {w f : List Byte} {k : Nat} (pre : w <+: f.drop k) {i : Nat} (small : i < w.length) :
    f[k + i]? = some w[i] := by
  rw [← List.getElem?_drop]
  exact prefix_getElem? pre (List.getElem?_eq_getElem small)

section Complete

variable {ch : Channel} {f v : List Byte} {u u' : Usart}

/-- The state is one of the frame's own socket. -/
theorem Complete.channel (complete : Complete ch f) (pre : v <+: f) {ch' : Channel} (head : v[0]? = some (header ch')) :
    ch' = ch :=
  header_inj (Option.some.inj ((prefix_getElem? pre head).symm.trans complete.frames.head))

theorem Complete.packLen (complete : Complete ch f) (pre : v <+: f) (measured : Measured ch u.packLen v) :
    u.packLen = f.length := by
  obtain ⟨past, same⟩ := measured complete.notB
  obtain ⟨w, rfl⟩ := pre
  rw [same, ← packLenOf_append complete.notB past w, complete.size]

/-- No byte of a well-formed frame is dropped. -/
theorem Complete.good (complete : Complete ch f) (pre : v <+: f) (tracks : Tracks u v) : ¬ Bad u := by
  intro bad
  have known := tracks.known
  unfold Known at known
  unfold Bad at bad
  cases state : u.state with
  | getSocketHead =>
    rw [state] at bad
    have plain : shown u.state v = v := by rw [state]; rfl
    have first := prefix_getElem? pre (tracks.byte plain (Nat.lt_of_succ_lt bad.1))
    exact bad.2.1 ch (Option.some.inj (first.symm.trans complete.frames.head))
  | getSocketData =>
    rw [state] at bad
    exact bad
  | getSocketId =>
    rw [state] at bad known
    obtain ⟨ch', type, _⟩ := known
    exact bad ch' type
  | getHead ch' =>
    rw [state] at bad known
    obtain rfl := complete.channel pre known.head
    have plain : shown u.state v = v := by rw [state]; rfl
    have notAps : ∃ k, k < 3 ∧ k + 10 < u.cur ∧ u.rx (k + 9) ≠ (str "APS").getD k nul := by
      have notB := complete.notB
      cases ch' with
      | b => contradiction
      | a => exact bad
      | c => exact bad
    obtain ⟨k, small, there, other⟩ := notAps
    have byte := prefix_getElem? pre (tracks.byte plain (Nat.lt_of_succ_lt there))
    have expected := getElem?_drop_prefix complete.frames.aps (i := k) small
    rw [Nat.add_comm, byte] at expected
    rw [List.getD_eq_getElem _ _ (show k < (str "APS").length from small)] at other
    exact other (Option.some.inj expected)
  | getLen ch' =>
    rw [state] at bad
    exact bad
  | getData ch' =>
    rw [state] at bad
    exact bad
  | getEnd ch' =>
    rw [state] at bad known
    obtain ⟨headed, _, measured⟩ := known
    obtain rfl := complete.channel pre headed.head
    have packLen := complete.packLen pre measured
    have notEnd : ∃ k, k < 3 ∧ u.packLen + k < u.cur + 3 ∧ u.rx (u.packLen + k - 3) ≠ (str "END").getD k nul := by
      have notB := complete.notB
      cases ch' with
      | b => contradiction
      | a => exact bad
      | c => exact bad
    obtain ⟨k, small, there, other⟩ := notEnd
    have three : (str "END").length = 3 := rfl
    have long : 18 < f.length := Nat.lt_of_le_of_lt (by cases ch' <;> decide) complete.frames.measured
    have inside : u.packLen + k - 3 < v.length := by
      rw [tracks.length]
      omega
    have byte : v.getD (u.packLen + k - 3) nul = (str "END")[k] := by
      have expected := getElem?_drop_prefix complete.frames.tail (i := k) small
      rw [complete.size, ← packLen, show u.packLen - 3 + k = u.packLen + k - 3 by omega] at expected
      have own := prefix_getElem? pre (List.getElem?_eq_getElem inside)
      rw [List.getD_eq_getElem _ _ inside]
      exact Option.some.inj (own.symm.trans expected)
    have letter : (str "END")[k] ≠ 0x41 := by
      have all : ∀ x ∈ str "END", x ≠ 0x41 := by decide +kernel
      exact all _ (List.getElem_mem _)
    have bytes := tracks.bytes _ inside
    rw [state] at bytes
    rw [List.getD_eq_getElem _ _ (show k < (str "END").length from small)] at other
    exact other (bytes.trans ((unpadded_plain inside (byte ▸ letter)).trans byte))

/-- With the whole frame received, no state has to wait. -/
theorem Complete.ready (complete : Complete ch f) (tracks : Tracks u f) : Ready u := by
  have pre : f <+: f := List.prefix_rfl
  have known := tracks.known
  unfold Known at known
  have measured := complete.frames.measured
  have notB := complete.notB
  have long : 18 < u.cur := by
    rw [← tracks.length]
    exact Nat.lt_of_le_of_lt (by cases ch <;> decide) measured
  unfold Ready
  cases state : u.state with
  | getSocketHead =>
    dsimp only
    omega
  | getSocketData =>
    dsimp only
    omega
  | getSocketId =>
    dsimp only
    omega
  | getHead ch' =>
    cases ch' <;> dsimp only <;> omega
  | getLen ch' =>
    rw [state] at known
    obtain rfl := complete.channel pre known.1.head
    rw [tracks.length] at measured
    cases ch' with
    | b => contradiction
    | a => exact measured
    | c => exact measured
  | getData ch' =>
    rw [state] at known
    obtain rfl := complete.channel pre known.1.head
    have packLen := complete.packLen pre known.2.2
    have length := tracks.length
    cases ch' <;> dsimp only <;> omega
  | getEnd ch' =>
    rw [state] at known
    obtain rfl := complete.channel pre known.1.head
    have packLen := complete.packLen pre known.2.2
    have length := tracks.length
    cases ch' with
    | b => contradiction
    | a =>
      dsimp only
      omega
    | c =>
      dsimp only
      omega

/-- A block keeps what there is of the frame, or hands over all of it. -/
theorem Complete.worked (complete : Complete ch f) (pre : v <+: f) (tracks : Tracks u v) (worked : Work u u') :
    (Tracks u' v ∧ u'.log = u.log) ∨ (v = f ∧ Idle u' ∧ u'.log = u.log ++ [packetOf ch f]) := by
  have known := tracks.known
  unfold Known at known
  have after := tracks.worked worked
  have keeps (cur : u'.cur = u.cur) (log : u'.log = u.log) : Tracks u' v ∧ u'.log = u.log :=
    ⟨after.kept_of tracks.length cur log, log⟩
  cases worked with
  | restart type timer id bad => exact absurd bad (complete.good pre tracks)
  | socketData state there =>
    rw [state] at known
    have first := (prefix_getElem? pre known).symm.trans complete.frames.head
    cases ch <;> exact absurd first (by decide)
  | deliver ch' notB state there long tail =>
    have same := (Ready.frames tracks notB state there long tail).2
    rw [state] at known
    obtain rfl := complete.channel pre known.1.head
    have packLen := complete.packLen pre known.2.2
    have whole : v = f := pre.eq_of_length_le (by rw [tracks.length, ← packLen]; exact there)
    refine Or.inr ⟨whole, ⟨rfl, rfl⟩, ?_⟩
    rw [← whole, ← same]
    rfl
  | deliverB state =>
    rw [state] at known
    exact absurd (complete.channel pre known.1.head).symm complete.notB
  | _ => exact Or.inl (keeps rfl rfl)

end Complete

/-! ## The run of a frame -/

/-- The frame is on its way, or has been handed over. -/
inductive Progress (ch : Channel) (f : List Byte) (log : List Packet) (v : List Byte) (u : Usart) : Prop
  | going (tracks : Tracks u v) (kept : u.log = log)
  | done (whole : v = f) (idle : Idle u) (handed : u.log = log ++ [packetOf ch f])

section Progress

variable {ch : Channel} {f v : List Byte} {log : List Packet} {u : Usart}

/-- Without bytes an idle parser stays idle. -/
theorem Idle.quiet (placed : Placed u) (idle : Idle u) {e : Event} (silent : received [e] = []) :
    Idle (u.step e) ∧ (u.step e).log = u.log := by
  cases e with
  | rx b => simp [received] at silent
  | tick =>
    show Idle u.tick ∧ u.tick.log = u.log
    unfold Usart.tick
    split
    · exact ⟨idle, rfl⟩
    · split
      · exact ⟨⟨rfl, rfl⟩, rfl⟩
      · exact ⟨⟨idle.state, idle.empty⟩, rfl⟩
  | run =>
    show Idle u.run ∧ u.run.log = u.log
    have ran := run_cases placed
    generalize u.run = after at ran ⊢
    cases ran with
    | call finished => exact ⟨⟨idle.state, idle.empty⟩, rfl⟩
    | skip running other => exact ⟨⟨idle.state, idle.empty⟩, rfl⟩
    | work u' turn worked =>
      have empty := idle.empty
      cases worked with
      | wait pos timer id waits kept => exact ⟨⟨idle.state, idle.empty⟩, rfl⟩
      | restart type timer id bad => exact ⟨⟨rfl, rfl⟩, rfl⟩
      | channel ch state there head => omega
      | socket state there head => omega
      | _ => simp_all [idle.state]

theorem idle_stays {log : List Packet} (w : Usart) (e : Event) (placed : Placed w) (done : Idle w ∧ w.log = log)
    (silent : received [e] = []) : Idle (w.step e) ∧ (w.step e).log = log := by
  obtain ⟨still, same⟩ := done.1.quiet placed silent
  exact ⟨still, same.trans done.2⟩

theorem Progress.step (complete : Complete ch f) (placed : Placed u) (progress : Progress ch f log v u) {e : Event}
    (runs : ¬ Resets u e) (pre : v ++ received [e] <+: f) : Progress ch f log (v ++ received [e]) (u.step e) := by
  cases progress with
  | done whole idle handed =>
    have silent : received [e] = [] := by
      have length := pre.length_le
      rw [whole, List.length_append] at length
      exact List.length_eq_zero_iff.1 (by omega)
    obtain ⟨still, same⟩ := idle.quiet placed silent
    rw [silent, List.append_nil]
    exact .done whole still (same.trans handed)
  | going tracks kept =>
    cases e with
    | rx b =>
      have fits : u.cur + 1 < usartRecLen := by
        have length := pre.length_le
        rw [List.length_append, tracks.length] at length
        exact Nat.lt_of_le_of_lt length complete.short
      exact .going (tracks.receive fits b) kept
    | tick =>
      obtain ⟨timer, same⟩ := tick_of_not_resets runs
      rw [show received [Event.tick] = [] from rfl, List.append_nil, show u.step .tick =
        { u with timer := timer } from same]
      exact .going ⟨tracks.length, tracks.bytes, tracks.known⟩ kept
    | run =>
      rw [show received [Event.run] = [] from rfl, List.append_nil] at pre ⊢
      show Progress ch f log v u.run
      have ran := run_cases placed
      generalize u.run = after at ran ⊢
      cases ran with
      | call finished => exact .going ⟨tracks.length, tracks.bytes, tracks.known⟩ kept
      | skip running other => exact .going ⟨tracks.length, tracks.bytes, tracks.known⟩ kept
      | work u' turn worked =>
        rcases complete.worked pre tracks worked with ⟨tracks, same⟩ | ⟨whole, idle, handed⟩
        · exact .going ⟨tracks.length, tracks.bytes, tracks.known⟩ (same.trans kept)
        · exact .done whole ⟨idle.state, idle.empty⟩ (by rw [← kept]; exact handed)

theorem Progress.steps (complete : Complete ch f) (placed : Placed u) (progress : Progress ch f log v u)
    {events : List Event} (undisturbed : Along (¬ Resets · ·) u events) (pre : v ++ received events <+: f) :
    Progress ch f log (v ++ received events) (u.steps events) := by
  induction events generalizing u v with
  | nil =>
    rw [show received [] = [] from rfl, List.append_nil]
    exact progress
  | cons e events ih =>
    rw [received_cons, ← List.append_assoc] at pre ⊢
    exact ih (placed.step e) (progress.step complete placed undisturbed.1 ((List.prefix_append _ _).trans pre))
      undisturbed.2 pre

/-- A frame that arrives on an idle parser is handed over by the second call after its last byte at the latest. -/
theorem frame_delivered (complete : Complete ch f) (placed : Placed u) (idle : Idle u) {arrivals polls : List Event}
    (arrives : received arrivals = f) (quiet : received polls = [])
      (undisturbed : Along (¬ Resets · ·) u (arrivals ++ polls))
    (often : 2 * callLength ≤ polls.count .run) :
    Idle (u.steps (arrivals ++ polls)) ∧ (u.steps (arrivals ++ polls)).log = u.log ++ [packetOf ch f] := by
  obtain ⟨first, second⟩ := along_append.1 undisturbed
  have arrived := Progress.steps complete placed (.going idle.tracks rfl) first (by rw [arrives]; exact List.prefix_rfl)
  rw [arrives, List.nil_append] at arrived
  have placed' := placed_steps placed arrivals
  rw [steps_append]
  have steps (w : Usart) (e : Event) (placed : Placed w) (going : Tracks w f ∧ w.log = u.log) (runs : ¬ Resets w e)
      (silent : received [e] = []) : ((Tracks (w.step e) f ∧ (w.step e).log = u.log) ∧ (w.step e).log = w.log) ∨
        (Idle (w.step e) ∧ (w.step e).log = u.log ++ [packetOf ch f]) := by
    have next := Progress.step complete placed (.going going.1 going.2) runs (by simp [silent])
    rw [silent, List.append_nil] at next
    cases next with
    | going tracks kept => exact Or.inl ⟨⟨tracks, kept⟩, kept.trans going.2.symm⟩
    | done whole idle handed => exact Or.inr ⟨idle, handed⟩
  cases arrived with
  | done whole idle handed => exact steps_stays idle_stays placed' ⟨idle, handed⟩ quiet
  | going tracks kept =>
    refine settles ?_ (fun _ _ runs => runs) steps idle_stays placed' ⟨tracks, kept⟩
      second quiet ((turns_le _).trans often)
    exact fun w going => ⟨complete.ready going.1, complete.good List.prefix_rfl going.1⟩

end Progress

theorem WellFormed.packetOf_eq {ch : Channel} {f : List Byte} (wellFormed : WellFormed ch f) (notB : ch ≠ .b)
    (short : f.length < usartRecLen) :
    packetOf ch f = .data ch (if ch = .a then (f.drop 1).take 8 else []) ((unpadded ch f).drop 9) := by
  have size := wellFormed.packLenOf_eq notB short
  have long := wellFormed.size
  rw [packetOf, size, if_neg (by omega), ← unpadded_length ch f, List.take_length]

/-- Both directions of the framing of sockets A and C. -/
theorem framing :
    (∀ events, Along Fits init events → ∃ pending, Parsed (received events) (init.steps events).log pending) ∧
      ∀ ch f before arrivals polls, ch ≠ .b → WellFormed ch f → f.length < usartRecLen → Idle (init.steps before) →
        received arrivals = f → received polls = [] → Along (¬ Resets · ·) (init.steps before) (arrivals ++ polls) →
          2 * callLength ≤ polls.count .run →
            Idle (init.steps (before ++ (arrivals ++ polls))) ∧
              (init.steps (before ++ (arrivals ++ polls))).log = (init.steps before).log ++
                [.data ch (if ch = .a then (f.drop 1).take 8 else []) ((unpadded ch f).drop 9)] := by
  constructor
  · intro events fits
    obtain ⟨_, pending, parsed, _⟩ := follows_init.steps fits
    exact ⟨pending, parsed⟩
  · intro ch f before arrivals polls notB wellFormed short idle arrives quiet undisturbed often
    rw [steps_append, ← wellFormed.packetOf_eq notB short]
    exact frame_delivered (wellFormed.complete notB short) (placed_steps placed_init before) idle arrives
      quiet undisturbed
      often

/-! ## Runs -/

def arrive (bytes : List Byte) : List Event :=
  bytes.map Event.rx

def calls (n : Nat) : List Event :=
  List.replicate (n * callLength) .run

/-- A call in the middle of a frame. -/
theorem framing_split :
    (∃ pending, Parsed (str "a12345678APS110012END")
      (init.steps (arrive (str "a12345678AP") ++ calls 1 ++ arrive (str "S110012END"))).log pending) ∧
      (init.steps (arrive (str "a12345678AP") ++ calls 1 ++ arrive (str "S110012END") ++ calls 2)).log =
        [.data .a (str "12345678") (str "APS110012END")] := by
  have wellFormed : WellFormed .a (str "a12345678APS110012END") :=
    ⟨rfl, ⟨_, rfl⟩, rfl, by decide +kernel, by decide +kernel, ⟨str "a12345678APS110012", rfl⟩⟩
  have arrives : received (arrive (str "a12345678AP") ++ calls 1 ++ arrive (str "S110012END")) =
      str "a12345678APS110012END" := by decide +kernel
  have cut := framing.1 (arrive (str "a12345678AP") ++ calls 1 ++ arrive (str "S110012END")) (by decide +kernel)
  have delivered := framing.2 .a (str "a12345678APS110012END") []
    (arrive (str "a12345678AP") ++ calls 1 ++ arrive (str "S110012END"))
    (calls 2) (by decide) wellFormed (by decide) ⟨rfl, rfl⟩ arrives (by decide +kernel) (by decide +kernel)
      (by decide +kernel)
  rw [arrives] at cut
  exact ⟨cut, delivered.2⟩

/-- Equal bytes that fit the buffer. -/
theorem arrive_fill (u : Usart) (b : Byte) {n : Nat} (fits : u.cur + n < usartRecLen) :
    u.steps (arrive (List.replicate n b)) =
      { u with rx := fun i => if u.cur ≤ i ∧ i < u.cur + n then b else u.rx i, cur := u.cur + n } := by
  induction n with
  | zero =>
    have none : (fun i => if u.cur ≤ i ∧ i < u.cur + 0 then b else u.rx i) = u.rx := by
      funext i
      exact if_neg (by omega)
    rw [none]
    rfl
  | succ n ih =>
    have before := ih (by omega)
    have cur : (if u.cur + n + 1 ≥ usartRecLen then 0 else u.cur + n + 1) = u.cur + (n + 1) := if_neg (by omega)
    have rx : (fun i => if i = u.cur + n then b else if u.cur ≤ i ∧ i < u.cur + n then b else u.rx i) =
        fun i => if u.cur ≤ i ∧ i < u.cur + (n + 1) then b else u.rx i := by
      funext i
      grind
    rw [arrive] at before
    rw [List.replicate_succ', arrive, List.map_append, steps_append, before, ← rx, ← cur]
    rfl

/-- What the parser takes for a frame, and what it loses. -/
theorem framing_lax :
    -- `END` in the id: an event without data for the length 0.
    (init.steps (arrive (str "a12345ENDAPS110000x") ++ calls 2)).log = [.data .a (str "12345END") []] ∧
    -- `'<'` is the digit 12.
    (init.steps (arrive (str "a12345678APS11000<END") ++ calls 2)).log =
      [.data .a (str "12345678") (str "APS11000<END")] ∧
    -- 65549 is 13.
    (init.steps (arrive (str "c12345678APS1165549END") ++ calls 2)).log = [.data .c [] (str "APS1165549END")] ∧
    -- 65535 + 9 is 8, which is less than the header.
    (init.steps (arrive (str "c1234END8APS1165535x") ++ calls 2)).log = [.overrun .c] ∧
    -- `Cur` goes back to the front: bytes that never had a header are handed over.
    (init.steps (arrive (str "a12345678APS110012E") ++ calls 1 ++ arrive (List.replicate 2028 0x78) ++
      arrive (str "xxxxxxxxxxxxxxxxxxxEND") ++ calls 1)).log = [.data .a (str "12345678") (str "xxxxxxxxxEND")] ∧
    -- The same with a well-formed frame, which is lost.
    WellFormed .a (str "a12345678APS112039" ++ List.replicate 2027 0x78 ++ str "END") ∧
    (init.steps (arrive (str "a12345678APS112039") ++ arrive (List.replicate 2027 0x78) ++ arrive (str "END") ++
      calls 2)).log = [] ∧
    -- The timer drops a frame whose last byte is late.
    WellFormed .a (str "a12345678APS110012END") ∧
    (init.steps (arrive (str "a12345678APS110012EN") ++ calls 1 ++ [.tick, .tick] ++ arrive (str "D") ++ calls
      2)).log = [] := by
  refine ⟨by decide +kernel, by decide +kernel, by decide +kernel, by decide +kernel, ?_, ?_, ?_, ?_, by decide +kernel⟩
  · rw [steps_append, steps_append, steps_append, arrive_fill _ _ (by decide +kernel)]
    decide +kernel
  · refine ⟨rfl, List.prefix_append _ _, rfl, ?_, ?_, List.suffix_append _ _⟩
    · decide +kernel
    · decide +kernel
  · rw [steps_append, steps_append, steps_append, arrive_fill _ _ (by decide +kernel)]
    decide +kernel
  · exact ⟨rfl, ⟨_, rfl⟩, rfl, by decide +kernel, by decide +kernel, ⟨str "a12345678APS110012", rfl⟩⟩

end Ecu.Wifi
