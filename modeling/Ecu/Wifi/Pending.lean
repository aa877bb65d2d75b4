import Ecu.Wifi.Call

/-!
# What has been received since the parser was idle

`Tracks u v`: the bytes received since the parser was last idle are `v`, and `v` is as far into a packet as the state
says. A packet that the parser hands over for socket A or C is framed by these bytes (`Framed`), so the bytes of a
run fall into pieces, each dropped or handed over as one packet (`Parsed`).
-/

namespace Ecu.Wifi

open Usart

/-! ## Packets by their bytes -/

def bytesAt (v : List Byte) (k : Nat) : Nat → Byte :=
  fun i => v.getD (k + i) nul

/-- `PackLen`, by the bytes of the length. -/
def packLenOf (ch : Channel) (v : List Byte) : Nat :=
  match ch with
  | .a => ushort (packetlenA (bytesAt v 14) + 9)
  | .b => if v.getD 10 nul = 0x62 then ushort (packetlenB (bytesAt v 19) + 9) else packetlenB (bytesAt v 10)
  | .c => ushort (packetlenC (bytesAt v 14) + 9)

/-- The padding of a length of socket C is gone. -/
def unpadded (ch : Channel) (v : List Byte) : List Byte :=
  match ch with
  | .c => v.mapIdx fun i b => if 14 ≤ i ∧ i < 19 ∧ b = 0x41 then 0x30 else b
  | _ => v

/-- The packet at the head of some bytes. -/
def packetOf (ch : Channel) (v : List Byte) : Packet :=
  if packLenOf ch v < 9 then .overrun ch
  else .data ch (if ch = .a then (v.drop 1).take 8 else []) (((unpadded ch v).take (packLenOf ch v)).drop 9)

/-- What stands behind the connection id. -/
def Marked (ch : Channel) (v : List Byte) : Prop :=
  match ch with
  | .b => v[9]? = some 0x31
  | _ => str "APS" <+: v.drop 9

/-- The bytes begin with a packet of socket A or C: the head, the id, `APS`, the version, the length, and `END` where
the length says. -/
structure Frames (ch : Channel) (v : List Byte) : Prop where
  head : v[0]? = some (header ch)
  aps : str "APS" <+: v.drop 9
  measured : lenEnd ch < v.length
  whole : packLenOf ch v ≤ v.length
  tail : str "END" <+: v.drop (packLenOf ch v - 3)

def Packet.channel? : Packet → Option Channel
  | .data ch _ _ => some ch
  | .overrun ch => some ch
  | .socket _ => none

def Framed (p : Packet) (v : List Byte) : Prop :=
  ∀ ch, ch ≠ .b → p.channel? = some ch → Frames ch v ∧ p = packetOf ch v

section Lengths

variable {packet packet' : Nat → Byte}

theorem packetlenA_congr (same : ∀ i < 4, packet i = packet' i) : packetlenA packet = packetlenA packet' := by
  simp only [packetlenA, digitAt, same 0 (by omega), same 1 (by omega), same 2 (by omega), same 3 (by omega)]

theorem packetlenB_congr (same : ∀ i < 2, packet i = packet' i) : packetlenB packet = packetlenB packet' := by
  simp only [packetlenB, digitAt, same 0 (by omega), same 1 (by omega)]

theorem packetlenC_congr (same : ∀ i < 5, packet i = packet' i) : packetlenC packet = packetlenC packet' := by
  simp only [packetlenC, digitAt, unpad, same 0 (by omega), same 1 (by omega), same 2 (by omega), same 3 (by omega),
    same 4 (by omega)]

end Lengths

/-- The bytes of the length are enough to know it. -/
theorem packLenOf_append {ch : Channel} {v : List Byte} (notB : ch ≠ .b) (measured : lenEnd ch < v.length)
    (w : List Byte) :
    packLenOf ch (v ++ w) = packLenOf ch v := by
  cases ch with
  | b => contradiction
  | a =>
    simp only [lenEnd] at measured
    have digits : packetlenA (bytesAt (v ++ w) 14) = packetlenA (bytesAt v 14) :=
      packetlenA_congr fun i small => List.getD_append v w nul _ (by omega)
    simp only [packLenOf, digits]
  | c =>
    simp only [lenEnd] at measured
    have digits : packetlenC (bytesAt (v ++ w) 14) = packetlenC (bytesAt v 14) :=
      packetlenC_congr fun i small => List.getD_append v w nul _ (by omega)
    simp only [packLenOf, digits]

theorem unpadded_length (ch : Channel) (v : List Byte) : (unpadded ch v).length = v.length := by
  cases ch with
  | c => exact List.length_mapIdx
  | _ => rfl

theorem unpadded_getD {v : List Byte} {i : Nat} (inside : i < v.length) :
    (unpadded .c v).getD i nul = if 14 ≤ i ∧ i < 19 ∧ v.getD i nul = 0x41 then 0x30 else v.getD i nul := by
  simp only [unpadded, List.getD_eq_getElem?_getD, List.getElem?_mapIdx, List.getElem?_eq_getElem inside]
  rfl

theorem unpadded_plain {ch : Channel} {v : List Byte} {i : Nat} (inside : i < v.length) (plain : v.getD i nul ≠ 0x41) :
    (unpadded ch v).getD i nul = v.getD i nul := by
  cases ch with
  | a => rfl
  | b => rfl
  | c => rw [unpadded_getD inside, if_neg fun padded => plain padded.2.2]

/-- The padding stands in front of the bytes that are still to come. -/
theorem unpadded_append {ch : Channel} {v : List Byte} (measured : ch = .c → 19 ≤ v.length) (b : Byte) :
    unpadded ch (v ++ [b]) = unpadded ch v ++ [b] := by
  cases ch with
  | a => rfl
  | b => rfl
  | c =>
    have past := measured rfl
    simp only [unpadded, List.mapIdx_append, List.mapIdx_singleton]
    rw [if_neg (by omega)]

/-! ## The parser and its bytes -/

/-- The receive buffer for the bytes that have been received. -/
def shown (s : RecvSM) (v : List Byte) : List Byte :=
  match s with
  | .getData ch => unpadded ch v
  | .getEnd ch => unpadded ch v
  | _ => v

structure Headed (ch : Channel) (id : Nat → Byte) (v : List Byte) : Prop where
  head : v[0]? = some (header ch)
  id : ∀ i < 8, v[i + 1]? = some (id i)

/-- The length of a packet of socket A or C is known. The one of socket B may have been taken too early. -/
def Measured (ch : Channel) (packLen : Nat) (v : List Byte) : Prop :=
  ch ≠ .b → lenEnd ch < v.length ∧ packLen = packLenOf ch v

/-- How far the bytes are into a packet. -/
def Known (u : Usart) (v : List Byte) : Prop :=
  match u.state with
  | .getSocketHead => True
  | .getSocketData => v[0]? = some 0x65
  | .getSocketId => ∃ ch, u.type = .channel ch ∧ v[0]? = some (header ch)
  | .getHead ch => Headed ch u.id v
  | .getLen ch => Headed ch u.id v ∧ Marked ch v
  | .getData ch => Headed ch u.id v ∧ Marked ch v ∧ Measured ch u.packLen v
  | .getEnd ch => Headed ch u.id v ∧ Marked ch v ∧ Measured ch u.packLen v

structure Tracks (u : Usart) (v : List Byte) : Prop where
  length : v.length = u.cur
  bytes : ∀ i < v.length, u.rx i = (shown u.state v).getD i nul
  known : Known u v

/-- Idle: nothing received. -/
structure Idle (u : Usart) : Prop where
  state : u.state = .getSocketHead
  empty : u.cur = 0

theorem Idle.tracks {u : Usart} (idle : Idle u) : Tracks u [] := by
  refine ⟨idle.empty.symm, nofun, ?_⟩
  simp only [Known, idle.state]

theorem getElem?_snoc {v : List Byte} {i : Nat} {x : Byte} (there : v[i]? = some x) (b : Byte) :
    (v ++ [b])[i]? = some x := by
  rw [List.getElem?_append_left (List.getElem?_eq_some_iff.1 there).1, there]

section Receive

variable {u : Usart} {v : List Byte} {ch : Channel} {id : Nat → Byte} {packLen : Nat}

theorem Headed.append (headed : Headed ch id v) (b : Byte) : Headed ch id (v ++ [b]) :=
  ⟨getElem?_snoc headed.head b, fun i small => getElem?_snoc (headed.id i small) b⟩

theorem Marked.append (marked : Marked ch v) (b : Byte) : Marked ch (v ++ [b]) := by
  have aps (here : str "APS" <+: v.drop 9) : str "APS" <+: (v ++ [b]).drop 9 := by
    rw [List.drop_append]
    exact here.trans (List.prefix_append _ _)
  cases ch with
  | a => exact aps marked
  | b => exact getElem?_snoc marked b
  | c => exact aps marked

theorem Measured.append (measured : Measured ch packLen v) (b : Byte) : Measured ch packLen (v ++ [b]) := by
  intro notB
  obtain ⟨long, same⟩ := measured notB
  refine ⟨by rw [List.length_append]; omega, ?_⟩
  rw [packLenOf_append notB long]
  exact same

theorem Known.receive (known : Known u v) (b : Byte) : Known (u.receive b) (v ++ [b]) := by
  have same : (u.receive b).state = u.state := rfl
  unfold Known at known ⊢
  rw [same]
  cases state : u.state with
  | getSocketHead => trivial
  | getSocketData =>
    rw [state] at known
    exact getElem?_snoc known b
  | getSocketId =>
    rw [state] at known
    obtain ⟨ch, type, head⟩ := known
    exact ⟨ch, type, getElem?_snoc head b⟩
  | getHead ch =>
    rw [state] at known
    exact Headed.append known b
  | getLen ch =>
    rw [state] at known
    exact ⟨known.1.append b, known.2.append b⟩
  | getData ch =>
    rw [state] at known
    exact ⟨known.1.append b, known.2.1.append b, known.2.2.append b⟩
  | getEnd ch =>
    rw [state] at known
    exact ⟨known.1.append b, known.2.1.append b, known.2.2.append b⟩

theorem shown_append (known : Known u v) (b : Byte) : shown u.state (v ++ [b]) = shown u.state v ++ [b] := by
  unfold Known at known
  have long {ch : Channel} (measured : Measured ch u.packLen v) (c : ch = .c) : 19 ≤ v.length := by
    have past := (measured (by rw [c]; decide)).1
    rw [c] at past
    exact Nat.le_of_lt past
  cases state : u.state with
  | getData ch =>
    rw [state] at known
    exact unpadded_append (long known.2.2) b
  | getEnd ch =>
    rw [state] at known
    exact unpadded_append (long known.2.2) b
  | _ => rfl

theorem shown_length (s : RecvSM) (v : List Byte) : (shown s v).length = v.length := by
  cases s with
  | getData ch => exact unpadded_length ch v
  | getEnd ch => exact unpadded_length ch v
  | _ => rfl

theorem Tracks.receive (tracks : Tracks u v) (fits : u.cur + 1 < usartRecLen) (b : Byte) :
    Tracks (u.receive b) (v ++ [b]) := by
  refine ⟨?_, fun i inside => ?_, tracks.known.receive b⟩
  · rw [List.length_append, tracks.length]
    exact (if_neg (Nat.not_le.2 fits)).symm
  · show (if i = u.cur then b else u.rx i) = (shown u.state (v ++ [b])).getD i nul
    rw [shown_append tracks.known, ← tracks.length]
    rw [List.length_append, List.length_singleton] at inside
    by_cases last : i = v.length
    · rw [if_pos last, last, ← shown_length u.state v]
      simp
    · rw [if_neg last, List.getD_append _ _ _ _ (by rw [shown_length]; omega)]
      exact tracks.bytes i (by omega)

end Receive

/-! ## One block -/

section Work

variable {u u' : Usart} {v : List Byte} {ch : Channel}

theorem Known.congr (known : Known u v) (state : u'.state = u.state) (type : u'.type = u.type)
    (packLen : u'.packLen = u.packLen) (id : u.state ≠ .getSocketId → u'.id = u.id) : Known u' v := by
  unfold Known at known ⊢
  rw [state, packLen]
  cases inState : u.state with
  | getSocketHead => trivial
  | getSocketData =>
    rw [inState] at known
    exact known
  | getSocketId =>
    rw [inState] at known
    rw [type]
    exact known
  | _ =>
    rw [inState] at known
    rw [id (by rw [inState]; nofun)]
    exact known

/-- A byte of the receive buffer before the length is read. -/
theorem Tracks.byte (tracks : Tracks u v) (plain : shown u.state v = v) {i : Nat} (there : i < u.cur) :
    v[i]? = some (u.rx i) := by
  have inside : i < v.length := by rw [tracks.length]; exact there
  rw [tracks.bytes i inside, plain, List.getD_eq_getElem _ _ inside, List.getElem?_eq_getElem inside]

theorem Tracks.at' (tracks : Tracks u v) (plain : shown u.state v = v) {k n : Nat} (there : k + n ≤ u.cur) :
    ∀ i < n, u.at' k i = bytesAt v k i := by
  intro i small
  have inside : k + i < v.length := by rw [tracks.length]; omega
  show u.rx (k + i) = v.getD (k + i) nul
  rw [tracks.bytes _ inside, plain]

theorem prefix_drop {w : List Byte} {k : Nat} (same : ∀ i (small : i < w.length), v[k + i]? = some w[i]) :
    w <+: v.drop k := by
  rw [List.prefix_iff_getElem?]
  intro i small
  rw [List.getElem?_drop]
  exact same i small

theorem map_range_bytesAt {w : List Byte} {k n : Nat} (inside : k + n ≤ w.length) :
    (List.range n).map (bytesAt w k) = (w.drop k).take n := by
  refine List.ext_getElem (by simp; omega) fun i small _ => ?_
  have there : k + i < w.length := by
    simp only [List.length_map, List.length_range] at small
    omega
  simp [bytesAt, List.getElem?_eq_getElem there]

/-- `END` is not touched by `packetlen_C`. -/
theorem unpadded_other {i : Nat} {x : Byte} (inside : i < v.length) (same : (unpadded ch v).getD i nul = x)
    (other : x ≠ 0x30) : v.getD i nul = x := by
  cases ch with
  | a => exact same
  | b => exact same
  | c =>
    rw [unpadded_getD inside] at same
    split_ifs at same with padded
    · exact absurd same.symm other
    · exact same

/-- The packet that is handed over is the one at the head of the bytes. -/
theorem packet_eq (headed : Headed ch u.id v) (packLen : u.packLen = packLenOf ch v) (whole : u.packLen ≤ v.length)
    (bytes : ∀ i < v.length, u.rx i = (unpadded ch v).getD i nul) (long : 9 ≤ v.length) :
    u.packet ch = packetOf ch v := by
  have id : u.idA = (v.drop 1).take 8 := by
    rw [← map_range_bytesAt (by omega)]
    refine List.map_congr_left fun i mem => ?_
    have there := headed.id i (List.mem_range.1 mem)
    rw [bytesAt, List.getD_eq_getElem?_getD, Nat.add_comm, there]
    rfl
  have data : u.payload = ((unpadded ch v).take u.packLen).drop 9 := by
    by_cases header : 9 ≤ u.packLen
    · rw [List.drop_take, ← map_range_bytesAt (by rw [unpadded_length]; omega)]
      refine List.map_congr_left fun i mem => ?_
      have there := List.mem_range.1 mem
      exact bytes (9 + i) (by omega)
    · rw [payload, Nat.sub_eq_zero_of_le (by omega), List.drop_of_length_le (by simp; omega)]
      rfl
  rw [packet, packetOf, id, data, packLen]

theorem Ready.frames (tracks : Tracks u v) (notB : ch ≠ .b) (state : u.state = .getEnd ch) (there : u.packLen ≤ u.cur)
    (long : 3 ≤ u.packLen) (tail : ∀ k < 3, u.rx (u.packLen + k - 3) = (str "END").getD k nul) :
    Frames ch v ∧ u.packet ch = packetOf ch v := by
  have known := tracks.known
  simp only [Known, state] at known
  obtain ⟨headed, marked, measured⟩ := known
  obtain ⟨past, packLen⟩ := measured notB
  have bytes : ∀ i < v.length, u.rx i = (unpadded ch v).getD i nul := by
    have held := tracks.bytes
    rwa [state] at held
  have whole : u.packLen ≤ v.length := by rwa [tracks.length]
  have atLeast : 18 ≤ lenEnd ch := by cases ch <;> decide
  refine ⟨⟨headed.head, ?_, past, packLen ▸ whole, ?_⟩, packet_eq headed packLen whole bytes (by omega)⟩
  · cases ch with
    | b => contradiction
    | a => exact marked
    | c => exact marked
  · rw [← packLen]
    refine prefix_drop fun k small => ?_
    have inside : u.packLen - 3 + k < v.length := by
      have three : (str "END").length = 3 := rfl
      omega
    have other : (str "END")[k] ≠ 0x30 := by
      have all : ∀ x ∈ str "END", x ≠ 0x30 := by decide +kernel
      exact all _ (List.getElem_mem small)
    have byte : (unpadded ch v).getD (u.packLen - 3 + k) nul = (str "END")[k] := by
      have last := tail k small
      rw [show u.packLen + k - 3 = u.packLen - 3 + k by omega, bytes _ inside, List.getD_eq_getElem _ _ small] at last
      exact last
    have same := unpadded_other inside byte other
    rw [List.getD_eq_getElem _ _ inside] at same
    rw [List.getElem?_eq_getElem inside, same]

/-- What a block makes of the bytes. -/
inductive After (u : Usart) (v : List Byte) (u' : Usart) : Prop
  | kept (tracks : Tracks u' v) (log : u'.log = u.log)
  | dropped (idle : Idle u') (log : u'.log = u.log)
  | packet (p : Packet) (framed : Framed p v) (idle : Idle u') (log : u'.log = u.log ++ [p])

/-- Nothing has happened to the bytes. -/
theorem After.kept_of (after : After u v u') (length : v.length = u.cur) (cur : u'.cur = u.cur) (log : u'.log = u.log) :
    Tracks u' v := by
  cases after with
  | kept tracks _ => exact tracks
  | dropped idle _ =>
    have empty : v = [] := by
      rw [← List.length_eq_zero_iff, length, ← cur]
      exact idle.empty
    rw [empty]
    exact idle.tracks
  | packet p _ _ handed =>
    rw [log] at handed
    exact absurd handed (by simp)

theorem Tracks.worked (tracks : Tracks u v) (worked : Work u u') : After u v u' := by
  have known := tracks.known
  unfold Known at known
  cases worked with
  | wait pos timer id waits kept =>
    exact .kept ⟨tracks.length, tracks.bytes, tracks.known.congr rfl rfl rfl kept⟩ rfl
  | restart type timer id bad => exact .dropped ⟨rfl, rfl⟩ rfl
  | channel ch state there head =>
    have plain : shown u.state v = v := by rw [state]; rfl
    have first := tracks.byte plain (Nat.lt_of_succ_lt there)
    rw [head] at first
    refine .kept ⟨tracks.length, ?_, ch, rfl, first⟩ rfl
    have bytes := tracks.bytes
    rwa [plain] at bytes
  | socket state there head =>
    have plain : shown u.state v = v := by rw [state]; rfl
    have first := tracks.byte plain (Nat.lt_of_succ_lt there)
    rw [head] at first
    have bytes := tracks.bytes
    rw [plain] at bytes
    exact .kept ⟨tracks.length, bytes, first⟩ rfl
  | socketData state there => exact .packet _ (fun _ _ channel => by cases channel) ⟨rfl, rfl⟩ rfl
  | id ch id state type there stored =>
    have plain : shown u.state v = v := by rw [state]; rfl
    have bytes := tracks.bytes
    rw [plain] at bytes
    rw [state] at known
    obtain ⟨_, type', head⟩ := known
    rw [type] at type'
    obtain rfl := RecvType.channel.inj type'
    refine .kept ⟨tracks.length, bytes, head, fun i small => ?_⟩ rfl
    rw [tracks.byte plain (by omega)]
    exact congrArg some (stored i small).symm
  | head ch notB state there aps =>
    have plain : shown u.state v = v := by rw [state]; rfl
    have bytes := tracks.bytes
    rw [plain] at bytes
    rw [state] at known
    have marked : str "APS" <+: v.drop 9 := by
      refine prefix_drop fun k small => ?_
      have three : (str "APS").length = 3 := rfl
      rw [tracks.byte plain (by omega), Nat.add_comm, aps k small, List.getD_eq_getElem _ _ small]
    refine .kept ⟨tracks.length, bytes, known, ?_⟩ rfl
    cases ch with
    | b => contradiction
    | a => exact marked
    | c => exact marked
  | headB state there reply =>
    have plain : shown u.state v = v := by rw [state]; rfl
    have bytes := tracks.bytes
    rw [plain] at bytes
    rw [state] at known
    refine .kept ⟨tracks.length, bytes, known, ?_⟩ rfl
    have byte := tracks.byte plain (Nat.lt_trans (Nat.lt_succ_self 9) there)
    rwa [reply] at byte
  | lenA state there =>
    have plain : shown u.state v = v := by rw [state]; rfl
    have bytes := tracks.bytes
    rw [plain] at bytes
    rw [state] at known
    refine .kept ⟨tracks.length, bytes, known.1, known.2, fun _ => ⟨?_, ?_⟩⟩ rfl
    · rw [tracks.length]
      exact there
    · dsimp only [packLenOf]
      rw [packetlenA_congr (tracks.at' plain (by omega))]
  | lenC state there =>
    have plain : shown u.state v = v := by rw [state]; rfl
    have bytes := tracks.bytes
    rw [plain] at bytes
    rw [state] at known
    refine .kept ⟨tracks.length, fun i inside => ?_, known.1, known.2, fun _ => ⟨?_, ?_⟩⟩ rfl
    · dsimp only [shown]
      rw [unpadded_getD inside, ← bytes i inside]
      by_cases behind : 14 ≤ i
      · have place : 14 + (i - 14) = i := by omega
        simp only [if_pos behind, unpad, Usart.at', place]
        congr 1
        grind
      · rw [if_neg behind, if_neg (by omega)]
    · rw [tracks.length]
      exact there
    · dsimp only [packLenOf]
      rw [packetlenC_congr (tracks.at' plain (by omega))]
  | lenB state there single =>
    have bytes := tracks.bytes
    rw [state] at known bytes
    exact .kept ⟨tracks.length, bytes, known.1, known.2, fun notB => absurd rfl notB⟩ rfl
  | lenSecondB state there second =>
    have bytes := tracks.bytes
    rw [state] at known bytes
    exact .kept ⟨tracks.length, bytes, known.1, known.2, fun notB => absurd rfl notB⟩ rfl
  | data ch pos state there =>
    have bytes := tracks.bytes
    rw [state] at known bytes
    exact .kept ⟨tracks.length, bytes, known⟩ rfl
  | deliver ch notB state there long tail =>
    obtain ⟨frames, same⟩ := Ready.frames tracks notB state there long tail
    refine .packet (u.packet ch) (fun ch' notB' channel => ?_) ⟨rfl, rfl⟩ rfl
    have own : (u.packet ch).channel? = some ch := by
      rw [Usart.packet]
      split_ifs <;> rfl
    obtain rfl : ch = ch' := Option.some.inj (own.symm.trans channel)
    exact ⟨frames, same⟩
  | deliverB state =>
    refine .packet (u.packet .b) (fun ch' notB' channel => ?_) ⟨rfl, rfl⟩ rfl
    have own : (u.packet .b).channel? = some .b := by
      rw [Usart.packet]
      split_ifs <;> rfl
    exact absurd (Option.some.inj (own.symm.trans channel)).symm notB'

end Work

/-! ## Every run -/

/-- A received stream, cut where the parser became idle: every piece was dropped or handed over as one packet. The
last piece is still pending. -/
def Parsed (stream : List Byte) (log : List Packet) (pending : List Byte) : Prop :=
  ∃ pieces : List (List Byte × Option Packet),
    stream = (pieces.map Prod.fst).flatten ++ pending ∧ log = pieces.filterMap Prod.snd ∧
      ∀ v p, (v, some p) ∈ pieces → Framed p v

section Parsed

variable {stream pending : List Byte} {log : List Packet}

theorem Parsed.append (parsed : Parsed stream log pending) (b : Byte) :
    Parsed (stream ++ [b]) log (pending ++ [b]) := by
  obtain ⟨pieces, whole, handed, framed⟩ := parsed
  exact ⟨pieces, by rw [whole, List.append_assoc], handed, framed⟩

theorem Parsed.drop (parsed : Parsed stream log pending) : Parsed stream log [] := by
  obtain ⟨pieces, rfl, rfl, framed⟩ := parsed
  refine ⟨pieces ++ [(pending, none)], by simp, by simp, fun v p mem => framed v p ?_⟩
  simpa using mem

theorem Parsed.packet (parsed : Parsed stream log pending) {p : Packet} (here : Framed p pending) :
    Parsed stream (log ++ [p]) [] := by
  obtain ⟨pieces, rfl, rfl, framed⟩ := parsed
  refine ⟨pieces ++ [(pending, some p)], by simp, by simp, fun v q mem => ?_⟩
  rcases List.mem_append.1 mem with mem | mem
  · exact framed v q mem
  · simp only [List.mem_singleton, Prod.mk.injEq, Option.some.injEq] at mem
    obtain ⟨rfl, rfl⟩ := mem
    exact here

end Parsed

/-- `Cur` does not go back to the front with a byte that arrives. -/
def Fits (u : Usart) : Event → Prop
  | .rx _ => u.cur + 1 < usartRecLen
  | _ => True

instance (u : Usart) : ∀ e, Decidable (Fits u e)
  | .rx _ => inferInstanceAs (Decidable (_ < _))
  | .tick => isTrue trivial
  | .run => isTrue trivial

theorem Tracks.tick {u : Usart} {v : List Byte} (tracks : Tracks u v) : After u v u.tick := by
  unfold Usart.tick
  split
  · exact .kept tracks rfl
  · split
    · exact .dropped ⟨rfl, rfl⟩ rfl
    · exact .kept ⟨tracks.length, tracks.bytes, tracks.known⟩ rfl

theorem Tracks.run {u : Usart} {v : List Byte} (placed : Placed u) (tracks : Tracks u v) : After u v u.run := by
  have ran := run_cases placed
  generalize u.run = after at ran ⊢
  cases ran with
  | call finished => exact .kept ⟨tracks.length, tracks.bytes, tracks.known⟩ rfl
  | skip running other => exact .kept ⟨tracks.length, tracks.bytes, tracks.known⟩ rfl
  | work u' turn worked =>
    cases tracks.worked worked with
    | kept tracks log => exact .kept ⟨tracks.length, tracks.bytes, tracks.known⟩ log
    | dropped idle log => exact .dropped ⟨idle.state, idle.empty⟩ log
    | packet p framed idle log => exact .packet p framed ⟨idle.state, idle.empty⟩ log

/-- What a run keeps: the stream so far is cut into pieces, and the parser is somewhere in the last one. -/
def Follows (stream : List Byte) (u : Usart) : Prop :=
  Placed u ∧ ∃ pending, Parsed stream u.log pending ∧ Tracks u pending

theorem Follows.after {stream pending : List Byte} {u u' : Usart} (placed : Placed u')
    (parsed : Parsed stream u.log pending)
    (after : After u pending u') : Follows stream u' := by
  cases after with
  | kept tracks log => exact ⟨placed, pending, by rwa [log], tracks⟩
  | dropped idle log => exact ⟨placed, [], by rw [log]; exact parsed.drop, idle.tracks⟩
  | packet p framed idle log => exact ⟨placed, [], by rw [log]; exact parsed.packet framed, idle.tracks⟩

theorem Follows.step {stream : List Byte} {u : Usart} (follows : Follows stream u) (e : Event)
    (fits : Fits u e) : Follows (stream ++ received [e]) (u.step e) := by
  obtain ⟨placed, pending, parsed, tracks⟩ := follows
  have next := placed.step e
  cases e with
  | rx b => exact ⟨next, pending ++ [b], parsed.append b, tracks.receive fits b⟩
  | tick =>
    rw [show received [Event.tick] = [] from rfl, List.append_nil]
    exact Follows.after next parsed tracks.tick
  | run =>
    rw [show received [Event.run] = [] from rfl, List.append_nil]
    exact Follows.after next parsed (tracks.run placed)

theorem Follows.steps {stream : List Byte} {u : Usart} (follows : Follows stream u) {events : List Event}
    (fits : Along Fits u events) : Follows (stream ++ received events) (u.steps events) := by
  induction events generalizing u stream with
  | nil =>
    rw [show received [] = [] from rfl, List.append_nil]
    exact follows
  | cons e events ih =>
    rw [received_cons, ← List.append_assoc]
    exact ih (follows.step e fits.1) fits.2

theorem follows_init : Follows [] Usart.init :=
  ⟨placed_init, [], ⟨[], rfl, rfl, nofun⟩, Idle.tracks ⟨rfl, rfl⟩⟩

end Ecu.Wifi
