import Ecu.Lib.Chunks
import Ecu.Lib.Decimal
import Ecu.Base

/-!
# Packets out and in (`usart5.c`, `clientSocket.c`)

What goes out over a socket is cut into packets of `SIZE_PER_SEND` bytes behind a head of nine (`sends_all`). A reply in
several packets comes with the heads of all but the first inside; `wifi_socketb_format` finds them by their bytes.
-/

namespace Ecu.Wifi

/-! ## Sending -/

/-- `SIZE_PER_SEND` -/
def sizePerSend : Nat := 2900

/-- The loop of the senders: what is handed to `WIFI_SendData`, as far as the fuel goes. -/
def sendLoop (head data : List Byte) : Nat → Nat → Nat → List (List Byte)
  | 0, _, _ => []
  | fuel + 1, length, sendLength =>
    if 0 < length then
      if length > sizePerSend then
        (head ++ (data.drop sendLength).take sizePerSend) ::
          sendLoop head data fuel (length - sizePerSend) (sendLength + sizePerSend)
      else [head ++ (data.drop sendLength).take length]
    else []

/-- `SendToSocketA` -/
def sendToSocketA (data : List Byte) (length : Nat) (id : List Byte) : List (List Byte) :=
  sendLoop (0x61 :: id) data length length 0

/-- `SendToSocketB`, where the connection is made: otherwise it sends nothing. -/
def sendToSocketB (data : List Byte) (length : Nat) : List (List Byte) :=
  sendLoop (str "b00000000") data length length 0

/-- `strncpy(&data[5], msg_length, 5)` of the length with five digits. -/
def writeLength (data : List Byte) (length : Nat) : List Byte :=
  data.take 5 ++ Decimal.fixed 5 length ++ data.drop 10

/-- The message that `SendToSocketC` sends, and its length: a line end is added where it is missing, and the length
written into it. -/
def finishMessage (data : List Byte) (length : Nat) : List Byte × Nat :=
  if (cstr data).getLast? = some newline then (writeLength data (strlen data - 1), length)
  else (writeLength (cstr data ++ [newline, nul] ++ data.drop (strlen data + 2)) (strlen data), length + 1)

/-- `SendToSocketC`, where the connection is made. -/
def sendToSocketC (data : List Byte) (length : Nat) : List (List Byte) :=
  let (data, length) := finishMessage data length
  sendLoop (str "c00000000") data length length 0

/-- The data in packets: each behind the head, none empty or too long. -/
structure Packets (head data : List Byte) (packets : List (List Byte)) : Prop where
  whole : (packets.map (·.drop 9)).flatten = data
  each : ∀ packet ∈ packets, packet.take 9 = head ∧ 9 < packet.length ∧ packet.length ≤ 9 + sizePerSend

theorem sendLoop_chunks (head : List Byte) {data : List Byte} {fuel length sendLength : Nat} (enough : length ≤ fuel)
    (inside : sendLength + length ≤ data.length) : sendLoop head data fuel length sendLength =
      (Chunks.chunks sizePerSend ((data.drop sendLength).take length)).map (head ++ ·) := by
  have some : 0 < sizePerSend := by decide
  induction fuel generalizing length sendLength with
  | zero =>
    rw [Nat.le_zero.1 enough, List.take_zero, Chunks.chunks_nil some]
    rfl
  | succ fuel ih =>
    have part : ((data.drop sendLength).take length).length = length := by
      rw [List.length_take, List.length_drop]
      omega
    rw [sendLoop]
    split_ifs with more longer
    · have rest : ((data.drop sendLength).take length).drop sizePerSend =
          (data.drop (sendLength + sizePerSend)).take (length - sizePerSend) := by
        rw [List.drop_take, List.drop_drop]
      rw [Chunks.chunks_cons some (List.ne_nil_of_length_pos (part.symm ▸ more)), rest, List.map_cons,
        List.take_take, Nat.min_eq_left longer.le, ih (by omega) (by omega)]
    · rw [Chunks.chunks_short some (List.ne_nil_of_length_pos (part.symm ▸ more)) (part.symm ▸ Nat.le_of_not_lt longer),
        List.map_singleton]
    · rw [Nat.eq_zero_of_not_pos more, List.take_zero, Chunks.chunks_nil some, List.map_nil]

/-- The loop sends all of the data. -/
theorem sendLoop_packets {head data : List Byte} {length : Nat} (nine : head.length = 9)
    (inside : length ≤ data.length) :
    Packets head (data.take length) (sendLoop head data length length 0) := by
  have some : 0 < sizePerSend := by decide
  rw [sendLoop_chunks head (Nat.le_refl length) (by omega), List.drop_zero]
  constructor
  · rw [List.map_map]
    have payloads : (Chunks.chunks sizePerSend (data.take length)).map ((·.drop 9) ∘ (head ++ ·)) =
        Chunks.chunks sizePerSend (data.take length) :=
      (List.map_congr_left fun chunk _ => List.drop_left' nine).trans (List.map_id _)
    rw [payloads, Chunks.flatten_chunks some]
  · intro packet mem
    obtain ⟨chunk, inChunks, rfl⟩ := List.mem_map.1 mem
    have length := Chunks.length_chunks some inChunks
    rw [List.length_append, nine]
    exact ⟨List.take_left' nine, by omega, by omega⟩

theorem writeLength_length (data : List Byte) (length : Nat) : data.length ≤ (writeLength data length).length := by
  rw [writeLength, List.length_append, List.length_append, Decimal.fixed_length, List.length_take, List.length_drop]
  omega

theorem finishMessage_length {data : List Byte} {length : Nat} (inside : length ≤ strlen data) :
    (finishMessage data length).2 ≤ (finishMessage data length).1.length := by
  have short : strlen data ≤ data.length := (List.takeWhile_prefix _).length_le
  rw [finishMessage]
  split_ifs with ended
  · exact le_trans (le_trans inside short) (writeLength_length _ _)
  · refine le_trans ?_ (writeLength_length _ _)
    rw [List.append_assoc, List.length_append, List.length_append]
    change length + 1 ≤ strlen data + _
    exact Nat.add_le_add inside (Nat.le_trans (by decide : 1 ≤ [newline, nul].length) (Nat.le_add_right _ _))

/-! ## Receiving -/

/-- `head` of `wifi_socketb_format`. -/
def socketbHead : List Byte :=
  0x62 :: List.replicate 8 nul

/-- The loop of `wifi_socketb_format`: the data and `retlength`, as far as the fuel goes. Where a head is taken out, the
next byte is passed over. -/
def formatLoop : Nat → Nat → List Byte → Nat → List Byte × Nat
  | 0, _, data, retlength => (data, retlength)
  | fuel + 1, i, data, retlength =>
    if i + 9 ≤ data.length then
      if (data.drop i).take 9 = socketbHead then
        formatLoop fuel (i + 1) (data.take i ++ data.drop (i + 9)) (data.length - 9)
      else formatLoop fuel (i + 1) data retlength
    else (data, retlength)

/-- `wifi_socketb_format`: the data and its length. -/
def wifiSocketbFormat (data : List Byte) : List Byte × Nat :=
  if ((data.length : Int) - 3).tmod 14 ≠ 0 then formatLoop data.length 0 data 0 else (data, data.length)

/-- A reply in several packets, without the head of the first one. -/
def inPackets (first : List Byte) (others : List (List Byte)) : List Byte :=
  first ++ others.flatMap (socketbHead ++ ·)

theorem formatLoop_end {fuel i : Nat} {data : List Byte} (retlength : Nat) (ended : data.length < i + 9) :
    formatLoop fuel i data retlength = (data, retlength) := by
  cases fuel with
  | zero => rfl
  | succ fuel => rw [formatLoop, if_neg (Nat.not_le.2 ended)]

/-- No head begins inside a packet that does not hold one, whatever follows: another packet begins with its own head. -/
theorem no_head {piece rest : List Byte} (free : ¬ socketbHead <:+: piece) (next : rest = [] ∨ socketbHead <+: rest)
    (more : piece ≠ []) : ¬ socketbHead <+: piece ++ rest := by
  intro found
  rcases List.prefix_or_prefix_of_prefix found (List.prefix_append piece rest) with inside | ⟨tail, split⟩
  · exact free inside.isInfix
  · rw [← split] at found
    have behind := (List.prefix_append_right_inj piece).1 found
    obtain ⟨c, piece, rfl⟩ := List.exists_cons_of_ne_nil more
    cases tail with
    | nil => exact free (List.append_nil (c :: piece) ▸ split ▸ List.infix_rfl)
    | cons b tail =>
      have zeros : piece ++ b :: tail = List.replicate 8 nul := (List.cons.inj split).2
      have zero : b = nul := by
        apply List.eq_of_mem_replicate (n := 8)
        rw [← zeros]
        exact List.mem_append_right piece List.mem_cons_self
      rcases next with rfl | begins
      · exact absurd (List.prefix_nil.1 behind) (List.cons_ne_nil b tail)
      · obtain ⟨more, rfl⟩ := begins
        have first := (List.cons_prefix_cons.1 behind).1
        rw [zero] at first
        exact absurd first (by decide)

/-- The loop passes over what holds no head. -/
theorem formatLoop_walk (pre : List Byte) {piece rest : List Byte} (free : ¬ socketbHead <:+: piece)
    (next : rest = [] ∨ socketbHead <+: rest) (fuel retlength : Nat) :
    formatLoop (fuel + piece.length) pre.length (pre ++ piece ++ rest) retlength =
      formatLoop fuel (pre ++ piece).length (pre ++ piece ++ rest) retlength := by
  induction piece generalizing pre with
  | nil => simp
  | cons b piece ih =>
    have later := ih (pre ++ [b]) fun inside => free (inside.trans (List.suffix_cons b piece).isInfix)
    rw [List.append_assoc pre, List.singleton_append, List.length_append, List.length_singleton] at later
    by_cases room : pre.length + 9 ≤ (pre ++ b :: piece ++ rest).length
    · rw [List.length_cons, ← Nat.add_assoc, formatLoop, if_pos room, if_neg, later]
      rw [List.append_assoc, List.drop_left' rfl]
      intro same
      refine no_head free next (List.cons_ne_nil b piece) ?_
      rw [← same]
      exact List.take_prefix 9 _
    · have ended := Nat.lt_of_not_le room
      rw [formatLoop_end _ ended, formatLoop_end]
      rw [@List.length_append _ pre]
      omega

theorem inPackets_cons (first next : List Byte) (others : List (List Byte)) :
    inPackets first (next :: others) = first ++ (socketbHead ++ inPackets next others) := by
  rw [inPackets, List.flatMap_cons, List.append_assoc]
  rfl

/-- Where a head is found, it is taken out and the byte behind it passed over. -/
theorem formatLoop_head (pre rest : List Byte) (fuel retlength : Nat) :
    formatLoop (fuel + 1) pre.length (pre ++ (socketbHead ++ rest)) retlength =
      formatLoop fuel (pre.length + 1) (pre ++ rest) (pre ++ rest).length := by
  have nine : socketbHead.length = 9 := rfl
  have room : pre.length + 9 ≤ (pre ++ (socketbHead ++ rest)).length := by
    rw [List.length_append, List.length_append, nine]
    omega
  have behind : (pre ++ (socketbHead ++ rest)).drop (pre.length + 9) = rest := by
    rw [← List.drop_drop, List.drop_left' rfl, List.drop_left' nine]
  have fewer : (pre ++ (socketbHead ++ rest)).length - 9 = (pre ++ rest).length := by
    rw [List.length_append, List.length_append, List.length_append, nine]
    omega
  rw [formatLoop, if_pos room, List.drop_left' rfl, List.take_left' nine, if_pos rfl, List.take_left' rfl,
    behind, fewer]

/-- The loop takes out the heads between the packets, and nothing else. -/
theorem formatLoop_inPackets {first : List Byte} {others : List (List Byte)} (pre : List Byte) {fuel : Nat}
    (free : ∀ piece ∈ first :: others, ¬ socketbHead <:+: piece) (inner : ∀ piece ∈ others.dropLast, piece ≠ [])
    (enough : (inPackets first others).length ≤ fuel) (retlength : Nat) :
    formatLoop fuel pre.length (pre ++ inPackets first others) retlength =
      (pre ++ (first :: others).flatten,
        if others = [] then retlength else (pre ++ (first :: others).flatten).length) := by
  induction others generalizing first pre fuel retlength with
  | nil =>
    have own : inPackets first [] = first := List.append_nil first
    rw [own] at enough ⊢
    obtain ⟨fuel, rfl⟩ := Nat.exists_eq_add_of_le' enough
    have walked := formatLoop_walk pre (free first List.mem_cons_self) (.inl (Eq.refl [])) fuel retlength
    rw [List.append_nil] at walked
    rw [walked, formatLoop_end _ (Nat.lt_add_of_pos_right (by decide)), if_pos rfl, List.flatten_singleton]
  | cons next others ih =>
    rw [inPackets_cons] at enough ⊢
    rw [List.length_append, List.length_append] at enough
    have nine : socketbHead.length = 9 := rfl
    obtain ⟨fuel, rfl⟩ : ∃ more, fuel = more + 1 + first.length := ⟨fuel - 1 - first.length, by omega⟩
    have walked := formatLoop_walk pre (free first List.mem_cons_self)
      (.inr (List.prefix_append socketbHead (inPackets next others))) (fuel + 1) retlength
    rw [List.append_assoc] at walked
    rw [walked, ← List.append_assoc, formatLoop_head, if_neg (List.cons_ne_nil next others), List.flatten_cons,
      ← List.append_assoc pre]
    cases next with
    | nil =>
      have last : others = [] := by
        by_contra more
        have inside : ([] : List Byte) ∈ ([] :: others).dropLast := by
          rw [List.dropLast_cons_of_ne_nil more]
          exact List.mem_cons_self
        exact inner [] inside rfl
      subst last
      have own : inPackets [] [] = [] := rfl
      rw [own, List.append_nil, formatLoop_end _ (by omega)]
      simp
    | cons b next =>
      have shape : pre ++ first ++ inPackets (b :: next) others = pre ++ first ++ [b] ++ inPackets next others := by
        rw [inPackets, inPackets, List.cons_append, List.append_assoc _ [b], List.singleton_append]
      have place : (pre ++ first).length + 1 = (pre ++ first ++ [b]).length := by
        rw [@List.length_append _ _ [b], List.length_singleton]
      have freeRest : ∀ piece ∈ next :: others, ¬ socketbHead <:+: piece := by
        intro piece mem
        rcases List.mem_cons.1 mem with rfl | later
        · have whole := free (b :: piece) (List.mem_cons_of_mem first List.mem_cons_self)
          exact fun inside => whole (inside.trans (List.suffix_cons b piece).isInfix)
        · exact free piece (List.mem_cons_of_mem first (List.mem_cons_of_mem (b :: next) later))
      have innerRest : ∀ piece ∈ others.dropLast, piece ≠ [] := by
        intro piece mem
        apply inner piece
        rw [List.dropLast_cons_of_ne_nil fun none => by rw [none] at mem; exact List.not_mem_nil mem]
        exact List.mem_cons_of_mem (b :: next) mem
      have fewer : (inPackets next others).length ≤ fuel := by
        have length := congrArg List.length shape
        rw [List.length_append, @List.length_append _ _ (inPackets next others), ← place] at length
        omega
      have flat : pre ++ first ++ [b] ++ (next :: others).flatten =
        pre ++ first ++ ((b :: next) :: others).flatten := by
        simp
      rw [shape, place, ih (pre ++ first ++ [b]) freeRest innerRest fewer, flat]
      split_ifs with last
      · subst last
        have own : inPackets next [] = next := List.append_nil next
        rw [own, ← flat, List.flatten_singleton]
      · rfl

/-- A reply in several packets is put together, where no packet holds a head, none between the first and the last is
empty, and the length is not that of a reply in one packet. -/
theorem format_inPackets {first : List Byte} {others : List (List Byte)}
    (free : ∀ piece ∈ first :: others, ¬ socketbHead <:+: piece) (inner : ∀ piece ∈ others.dropLast, piece ≠ [])
    (several : others ≠ []) (other : ¬ (14 : Int) ∣ (inPackets first others).length - 3) :
    wifiSocketbFormat (inPackets first others) = ((first :: others).flatten, (first :: others).flatten.length) := by
  have loop := formatLoop_inPackets [] free inner (Nat.le_refl _) 0
  rw [List.nil_append, List.nil_append, List.length_nil, if_neg several] at loop
  rw [wifiSocketbFormat, if_pos, loop]
  exact fun zero => other (Int.dvd_of_tmod_eq_zero zero)

/-! ## Both ways -/

/-- The three senders send all of their data, and a reply in several packets is put together. -/
theorem fragments {data message id first : List Byte} {length textLength : Nat} {others : List (List Byte)}
    (eight : id.length = 8) (inside : length ≤ data.length) (text : textLength ≤ strlen message)
    (free : ∀ piece ∈ first :: others, ¬ socketbHead <:+: piece) (inner : ∀ piece ∈ others.dropLast, piece ≠ [])
    (several : others ≠ []) (other : ¬ (14 : Int) ∣ (inPackets first others).length - 3) :
    Packets (0x61 :: id) (data.take length) (sendToSocketA data length id) ∧
      Packets (str "b00000000") (data.take length) (sendToSocketB data length) ∧
      Packets (str "c00000000") ((finishMessage message textLength).1.take (finishMessage message textLength).2)
        (sendToSocketC message textLength) ∧
      wifiSocketbFormat (inPackets first others) = ((first :: others).flatten, (first :: others).flatten.length) := by
  refine ⟨?_, ?_, ?_, format_inPackets free inner several other⟩
  · exact sendLoop_packets (by rw [List.length_cons, eight]) inside
  · exact sendLoop_packets (by decide) inside
  · exact sendLoop_packets (by decide) (finishMessage_length text)

theorem sample_free : ∀ piece ∈ [str "101201704", str "03120000"], ¬ socketbHead <:+: piece := by
  intro piece mem inside
  have first := inside.subset (List.mem_cons_self (a := 0x62))
  simp only [List.mem_cons, List.not_mem_nil, or_false] at mem
  rcases mem with rfl | rfl
  · exact absurd first (by decide)
  · exact absurd first (by decide)

theorem fragments_sample :
    Packets (0x61 :: str "00000001") ((str "APS18").take 5) (sendToSocketA (str "APS18") 5 (str "00000001")) ∧
      Packets (str "b00000000") ((str "APS18").take 5) (sendToSocketB (str "APS18") 5) ∧
      Packets (str "c00000000")
        ((finishMessage (str "APS1300000END") 13).1.take (finishMessage (str "APS1300000END") 13).2)
        (sendToSocketC (str "APS1300000END") 13) ∧
      wifiSocketbFormat (inPackets (str "101201704") [str "03120000"]) =
        ([str "101201704", str "03120000"].flatten, [str "101201704", str "03120000"].flatten.length) := by
  have eight : (str "00000001").length = 8 := by decide
  have inside : 5 ≤ (str "APS18").length := by decide
  have text : 13 ≤ strlen (str "APS1300000END") := by decide
  exact fragments eight inside text sample_free (by decide) (by decide) (by decide)

/-- A packet that holds the bytes of a head loses them. -/
theorem head_in_reply : ¬ ∀ (first : List Byte) (others : List (List Byte)), others ≠ [] →
    wifiSocketbFormat (inPackets first others) = ((first :: others).flatten, (first :: others).flatten.length) := by
  intro claim
  have same := claim (socketbHead ++ [0x31]) [[0x32]] (List.cons_ne_nil _ _)
  revert same
  decide +kernel

end Ecu.Wifi
