import Ecu.Lib.Arrays
import Ecu.Phone.RegisterId
import Ecu.Rows
import Ecu.Wifi.Extents

/-!
# The settings that the phone changes (`phoneServer.c`, `channel.c`)

Four commands change the time, the wired network, the password of the access point and the channel of the ZigBee
network. Their fields stand behind the head of the packet. The lengths of the two passwords and the two channels are
computed from characters that are not tested: `ResolveWifiPasswd` copies what comes out, and `saveNewChannel` prints it
into three bytes (`settings_bounded_iff`).
-/

namespace Ecu.Phone

open Socket Wifi

/-! ## The functions -/

/-- `WIFI_RecvSocketAData` after a delivery: it is cleared before the packet is copied. -/
def socketAData (packet : List Byte) : List Byte :=
  packet ++ List.replicate (socketLen .a - packet.length) nul

/-- What the four functions see of the ECU. -/
structure Own where
  /-- The twelve bytes of `ecu.id` that `memcmp` looks at. -/
  id : List Byte
  /-- `apstime` -/
  time : List Byte
  /-- `/YUNENG/PASSWD.CON` -/
  passwd : List Byte

/-- What they do. -/
inductive Change where
  /-- The answer, with its `mapping`. -/
  | response (mapping : Byte)
  | setTime (setTime : List Byte)
  /-- `staticIP.con` is removed, and the address comes from DHCP. -/
  | dynamicIP
  /-- The text of `staticIP.con`, which `StaticIP` puts to use. -/
  | staticIP (buff : List Byte)
  /-- `WIFI_ChangePasswd` and `set_Passwd`. -/
  | changePasswd (newPassword : List Byte)
  /-- The text of `old_chan.con`. -/
  | oldChannel (buffer : List Byte)
  /-- The text of `new_chan.con`. -/
  | newChannel (buffer : List Byte)
  /-- `saveChannel_change_flag` -/
  | channelFlag
  /-- `restartThread(TYPE_MAIN)` -/
  | restartMain
deriving DecidableEq

/-- `!memcmp(&recvbuffer[13],ecu.id,12)` -/
def isOwn (own : Own) (recvbuffer : List Byte) : Prop :=
  (recvbuffer.drop 13).take 12 = own.id

instance (own : Own) (recvbuffer : List Byte) : Decidable (isOwn own recvbuffer) :=
  inferInstanceAs (Decidable (_ = _))

/-- `Phone_SetTime` -/
def phoneSetTime (own : Own) (recvbuffer : List Byte) : Option (List Change) := do
  if isOwn own recvbuffer then
    let setTime ← Arrays.copy 15 recvbuffer 28 14
    let setTime := if setTime.take 8 = str "99999999" then own.time.take 8 ++ setTime.drop 8 else setTime
    let setTime :=
      if (setTime.drop 8).take 6 = str "999999" then setTime.take 8 ++ (own.time.drop 8).take 6 else setTime
    return [.setTime setTime, .restartMain, .response 0x00]
  else return [.response 0x01]

/-- `IP_t` -/
structure IP where
  ip1 : Byte
  ip2 : Byte
  ip3 : Byte
  ip4 : Byte

def readIP (string : List Byte) (i : Int) : Option IP :=
  return ⟨← Arrays.read string i, ← Arrays.read string (i + 1), ← Arrays.read string (i + 2),
    ← Arrays.read string (i + 3)⟩

/-- `%d.%d.%d.%d` -/
def IP.text (ip : IP) : List Byte :=
  Decimal.text ip.ip1.toNat ++ str "." ++ Decimal.text ip.ip2.toNat ++ str "." ++ Decimal.text ip.ip3.toNat ++
    str "." ++ Decimal.text ip.ip4.toNat

/-- The addresses of `staticIP.con`. -/
structure Addresses where
  ipAddr : IP
  mskAddr : IP
  gwAddr : IP
  dns1Addr : IP
  dns2Addr : IP

/-- `ResolveWired`: the mode, with the addresses of mode 1. -/
inductive Wired where
  | dynamic
  | static (addresses : Addresses)
  | failed

/-- `ResolveWired`; `string` is the place of its argument in the buffer. -/
def resolveWired (recvbuffer : List Byte) (string : Int) : Option Wired := do
  let mode ← Arrays.read recvbuffer (string + 1)
  if mode = 0x30 then return .dynamic
  else if mode = 0x31 then
    return .static ⟨← readIP recvbuffer (string + 2), ← readIP recvbuffer (string + 6),
      ← readIP recvbuffer (string + 10), ← readIP recvbuffer (string + 14), ← readIP recvbuffer (string + 18)⟩
  else return .failed

def Addresses.text (a : Addresses) : List Byte :=
  str "IPAddr=" ++ a.ipAddr.text ++ str "\nMSKAddr=" ++ a.mskAddr.text ++ str "\nGWAddr=" ++ a.gwAddr.text ++
    str "\nDNS1Addr=" ++ a.dns1Addr.text ++ str "\nDNS2Addr=" ++ a.dns2Addr.text ++ str "\n"

/-- `Phone_SetWiredNetwork` -/
def phoneSetWiredNetwork (own : Own) (recvbuffer : List Byte) : Option (List Change) := do
  if isOwn own recvbuffer then
    match ← resolveWired recvbuffer 28 with
    | .dynamic => return [.response 0x00, .dynamicIP]
    | .static addresses => return [.response 0x00, .staticIP (← Arrays.print 200 addresses.text)]
    | .failed => return [.response 0x00]
  else return [.response 0x01]

/-- What `ResolveWifiPasswd` writes. -/
structure Passwords where
  oldPasswd : List Byte
  oldLen : Int
  newPasswd : List Byte
  newLen : Int

/-- The bytes of `OldPassword`, `NewPassword` and `EEPROMPasswd`. -/
def passwordLen : Nat := 100

/-- Two characters as a number; they are not tested to be digits. -/
def twoChars (string : List Byte) (i : Int) : Option Int := do
  let tens ← Arrays.read string i
  let ones ← Arrays.read string (i + 1)
  return ((tens.toNat : Int) - 0x30) * 10 + ((ones.toNat : Int) - 0x30)

/-- `ResolveWifiPasswd`; `passwdstring` is the place of its argument in the buffer. -/
def resolveWifiPasswd (recvbuffer : List Byte) (passwdstring : Int) : Option Passwords := do
  let oldLen ← twoChars recvbuffer passwdstring
  let oldPasswd ← Arrays.copy passwordLen recvbuffer (passwdstring + 2) oldLen
  let newLen ← twoChars recvbuffer (passwdstring + 2 + oldLen)
  let newPasswd ← Arrays.copy passwordLen recvbuffer (passwdstring + 4 + oldLen) newLen
  return ⟨memcpy (List.replicate passwordLen nul) oldPasswd, oldLen, memcpy (List.replicate passwordLen nul) newPasswd,
    newLen⟩

/-- `Phone_SetWIFIPasswd` -/
def phoneSetWIFIPasswd (own : Own) (recvbuffer : List Byte) : Option (List Change) := do
  if isOwn own recvbuffer then
    let passwords ← resolveWifiPasswd recvbuffer 28
    let eepromPasswd := memcpy (List.replicate passwordLen nul) (own.passwd.take 100)
    if eepromPasswd.take passwords.oldLen.toNat = passwords.oldPasswd.take passwords.oldLen.toNat ∧
        passwords.oldLen = strlen eepromPasswd then
      return [.response 0x00, .changePasswd (cstr passwords.newPasswd)]
    else return [.response 0x02]
  else return [.response 0x01]

/-- What `switchChannel` makes of a character: the second and third test see what the ones before have changed. -/
def switchByte (b : Byte) : Byte :=
  let b := if 0x30 ≤ b ∧ b ≤ 0x39 then b - 0x30 else b
  let b := if 0x41 ≤ b ∧ b ≤ 0x46 then b - 0x37 else b
  if 0x61 ≤ b ∧ b ≤ 0x66 then b - 0x57 else b

/-- `switchChannel`: the buffer with the changed characters, and the channel. -/
def switchChannel (recvbuffer : List Byte) (buff : Nat) : Option (List Byte × Int) := do
  let high := switchByte (← Arrays.read recvbuffer buff)
  let low := switchByte (← Arrays.read recvbuffer (buff + 1 : Nat))
  return ((recvbuffer.set buff high).set (buff + 1) low, (high.toNat * 16 + low.toNat : Nat))

/-- `unsigned char` -/
def uchar (v : Int) : Nat :=
  (v % 256).toNat

/-- `saveOldChannel` and `saveNewChannel`: the text of the file, printed into three bytes. -/
def saveChannel (channel : Nat) : Option (List Byte) :=
  Arrays.print 3 (Decimal.text channel)

/-- `Phone_SetChannel` -/
def phoneSetChannel (own : Own) (recvbuffer : List Byte) : Option (List Change) := do
  if isOwn own recvbuffer then
    let (recvbuffer, oldChannel) ← switchChannel recvbuffer 28
    let (_, newChannel) ← switchChannel recvbuffer 30
    let oldBuffer ← saveChannel (uchar oldChannel)
    let newBuffer ← saveChannel (uchar newChannel)
    return [.response 0x00, .oldChannel oldBuffer, .newChannel newBuffer, .channelFlag, .restartMain]
  else return [.response 0x01]

/-- `getOldChannel` and `getNewChannel`: the main thread reads three characters of the file. -/
def getChannel (file : List Byte) : Int :=
  atoi (file.take 3)

/-! ## What they are for -/

inductive Setting where
  | time
  | wiredNetwork
  | wifiPasswd
  | channel
deriving DecidableEq

def Setting.handler : Setting → Handler
  | .time => .setTime
  | .wiredNetwork => .setWiredNetwork
  | .wifiPasswd => .setWIFIPasswd
  | .channel => .setChannel

def Setting.run (own : Own) (recvbuffer : List Byte) : Setting → Option (List Change)
  | .time => phoneSetTime own recvbuffer
  | .wiredNetwork => phoneSetWiredNetwork own recvbuffer
  | .wifiPasswd => phoneSetWIFIPasswd own recvbuffer
  | .channel => phoneSetChannel own recvbuffer

/-- The channels that are stored for the main thread. -/
def storedChannels (changes : List Change) : List Int :=
  changes.filterMap fun
    | .oldChannel file | .newChannel file => some (getChannel file)
    | _ => none

/-- Every access is inside of its array, and the channels stored are two of the sixteen. -/
def Setting.Bounded (own : Own) (packet : List Byte) (setting : Setting) : Prop :=
  ∃ changes, setting.run own (socketAData packet) = some changes ∧
    ∀ channel ∈ storedChannels changes, 11 ≤ channel ∧ channel ≤ 26

/-- A packet for this ECU that makes `process_WIFI` call the function. -/
structure Requested (own : Own) (beyond : Int → Option Handler) (packet : List Byte) (setting : Setting) : Prop where
  called : ∃ command, processWifi beyond packet = some command ∧ command.called = some setting.handler
  own : isOwn own (socketAData packet)

/-- Two characters in decimal, `'0'` taken as 48. -/
def decimalChars (packet : List Byte) (i : Nat) : Nat :=
  (packet.getD i nul).toNat * 10 + (packet.getD (i + 1) nul).toNat

/-- A hexadecimal digit; another character counts as it is. -/
def hexChar (b : Byte) : Nat :=
  if 0x30 ≤ b ∧ b ≤ 0x39 then b.toNat - 48
  else if 0x41 ≤ b ∧ b ≤ 0x46 then b.toNat - 55
  else if 0x61 ≤ b ∧ b ≤ 0x66 then b.toNat - 87
  else b.toNat

/-- Two characters in hexadecimal, of which a byte is kept. -/
def hexChars (packet : List Byte) (i : Nat) : Nat :=
  (hexChar (packet.getD i nul) * 16 + hexChar (packet.getD (i + 1) nul)) % 256

/-- The lengths say 0 to 100, 528 being two zeros; the channels say 11 to 26. -/
def Setting.Orderly (packet : List Byte) : Setting → Prop
  | .time | .wiredNetwork => True
  | .wifiPasswd =>
    let old := decimalChars packet 28
    let new := decimalChars packet (30 + (old - 528))
    (528 ≤ old ∧ old ≤ 628) ∧ 528 ≤ new ∧ new ≤ 628
  | .channel =>
    (11 ≤ hexChars packet 28 ∧ hexChars packet 28 ≤ 26) ∧ 11 ≤ hexChars packet 30 ∧ hexChars packet 30 ≤ 26

/-! ## The buffer -/

section Buffer

variable {packet : List Byte} (short : packet.length + 9 ≤ usartRecLen)

include short

theorem socketAData_length : (socketAData packet).length = 2048 := by
  unfold usartRecLen at short
  rw [socketAData, List.length_append, List.length_replicate, socketLen]
  omega

theorem read_socketAData {i : Nat} (inside : i < 2048) :
    Arrays.read (socketAData packet) i = some (packet.getD i nul) := by
  refine Arrays.read_eq ?_
  have whole := socketAData_length short
  rw [List.getElem?_eq_getElem (by omega), List.getD_eq_getElem?_getD, Option.some_inj]
  by_cases own : i < packet.length
  · rw [List.getElem?_eq_getElem own, Option.getD_some]
    exact List.getElem_append_left own
  · rw [List.getElem?_eq_none (Nat.le_of_not_lt own), Option.getD_none]
    exact (List.getElem_append_right (Nat.le_of_not_lt own)).trans (List.getElem_replicate _)

theorem twoChars_socketAData {i : Nat} (inside : i + 1 < 2048) :
    twoChars (socketAData packet) i = some ((decimalChars packet i : Int) - 528) := by
  have next := read_socketAData short inside
  rw [Int.natCast_succ] at next
  rw [twoChars, read_socketAData short (Nat.lt_of_succ_lt inside), Option.bind_eq_bind, Option.bind_some, next,
    Option.bind_some, decimalChars]
  refine congrArg some ?_
  push_cast
  ring

theorem readIP_socketAData {i : Nat} (inside : i + 3 < 2048) : ∃ ip, readIP (socketAData packet) i = some ip := by
  have place (k : Nat) (small : k ≤ 3) := read_socketAData short (i := i + k) (by omega)
  have one := place 1 (by decide)
  have two := place 2 (by decide)
  have three := place 3 (by decide)
  push_cast at one two three
  rw [readIP, read_socketAData short (by omega), one, two, three]
  exact ⟨_, rfl⟩

theorem resolveWired_socketAData : ∃ wired, resolveWired (socketAData packet) 28 = some wired := by
  have mode := read_socketAData short (i := 29) (by decide)
  rw [resolveWired, show (28 : Int) + 1 = (29 : Nat) from rfl, mode, Option.bind_eq_bind, Option.bind_some]
  split_ifs with isDynamic isStatic
  · exact ⟨_, rfl⟩
  · have address (k : Int) (inside : 0 ≤ k ∧ k + 3 < 2048) : ∃ ip, readIP (socketAData packet) k = some ip := by
      obtain ⟨i, rfl⟩ := Int.eq_ofNat_of_zero_le inside.1
      exact readIP_socketAData short (by omega)
    obtain ⟨ipAddr, readIp⟩ := address (28 + 2) (by decide)
    obtain ⟨mskAddr, readMsk⟩ := address (28 + 6) (by decide)
    obtain ⟨gwAddr, readGw⟩ := address (28 + 10) (by decide)
    obtain ⟨dns1Addr, readDns1⟩ := address (28 + 14) (by decide)
    obtain ⟨dns2Addr, readDns2⟩ := address (28 + 18) (by decide)
    rw [readIp, readMsk, readGw, readDns1, readDns2]
    exact ⟨_, rfl⟩
  · exact ⟨_, rfl⟩

end Buffer

/-! ## The time and the network -/

theorem IP.text_length (ip : IP) : ip.text.length ≤ 15 := by
  have part (b : Byte) : (Decimal.text b.toNat).length ≤ 3 :=
    (Decimal.length_text_le_iff (by decide)).2 (Nat.lt_trans b.toNat_lt (by decide))
  have one := part ip.ip1
  have two := part ip.ip2
  have three := part ip.ip3
  have four := part ip.ip4
  have point : (str ".").length = 1 := rfl
  simp only [IP.text, List.length_append, point]
  omega

theorem Addresses.text_length (a : Addresses) : a.text.length < 200 := by
  have one := a.ipAddr.text_length
  have two := a.mskAddr.text_length
  have three := a.gwAddr.text_length
  have four := a.dns1Addr.text_length
  have five := a.dns2Addr.text_length
  have names : (str "IPAddr=").length + (str "\nMSKAddr=").length + (str "\nGWAddr=").length +
      (str "\nDNS1Addr=").length + (str "\nDNS2Addr=").length + (str "\n").length = 45 := rfl
  simp only [Addresses.text, List.length_append]
  omega

/-! ## The passwords -/

/-- Both copies are made exactly if the lengths fit the arrays; the packet and its zeros are long enough then. -/
theorem resolveWifiPasswd_iff {packet : List Byte} (short : packet.length + 9 ≤ usartRecLen) :
    (∃ passwords, resolveWifiPasswd (socketAData packet) 28 = some passwords) ↔ Setting.Orderly packet .wifiPasswd := by
  have whole := socketAData_length short
  have oldLen := twoChars_socketAData short (i := 28) (by decide)
  unfold Setting.Orderly
  dsimp only
  generalize decimalChars packet 28 = old at oldLen
  rw [resolveWifiPasswd]
  constructor
  · rintro ⟨passwords, resolved⟩
    obtain ⟨len, isLen, resolved⟩ := Option.bind_eq_some_iff.1 resolved
    obtain rfl := Option.some.inj (oldLen.symm.trans isLen)
    obtain ⟨piece, oldCopied, resolved⟩ := Option.bind_eq_some_iff.1 resolved
    have oldFits := Arrays.copy_isSome oldCopied
    unfold passwordLen at oldFits
    have place : (28 : Int) + 2 + ((old : Int) - 528) = (30 + (old - 528) : Nat) := by omega
    obtain ⟨len, isLen, resolved⟩ := Option.bind_eq_some_iff.1 resolved
    rw [place, twoChars_socketAData short (by omega)] at isLen
    obtain rfl := Option.some.inj isLen
    obtain ⟨piece, newCopied, -⟩ := Option.bind_eq_some_iff.1 resolved
    have newFits := Arrays.copy_isSome newCopied
    unfold passwordLen at newFits
    omega
  · rintro ⟨⟨oldLow, oldHigh⟩, newLow, newHigh⟩
    have place : (28 : Int) + 2 + ((old : Int) - 528) = (30 + (old - 528) : Nat) := by omega
    have newLen := twoChars_socketAData short (i := 30 + (old - 528)) (by omega)
    generalize decimalChars packet (30 + (old - 528)) = new at newLen newLow newHigh
    have room : (passwordLen : Int) = 100 := rfl
    change ∃ passwords, (twoChars (socketAData packet) (28 : Nat)).bind _ = some passwords
    rw [oldLen, Option.bind_some, Option.bind_eq_bind, Arrays.copy_eq (by omega) (by omega) (by decide) (by omega),
      Option.bind_some, Option.bind_eq_bind, place, newLen, Option.bind_some,
      Arrays.copy_eq (by omega) (by omega) (by omega) (by omega), Option.bind_some]
    exact ⟨_, rfl⟩

/-! ## The channels -/

/-- A character changed by one of the tests is not changed again. -/
theorem switchByte_toNat (b : Byte) : (switchByte b).toNat = hexChar b := by
  revert b
  decide +kernel

theorem uchar_lt (v : Int) : uchar v < 256 := by
  unfold uchar
  omega

/-- The channel of two characters; what stands behind them is kept. -/
theorem switchChannel_of {packet array : List Byte} {i : Nat}
    (high : Arrays.read array i = some (packet.getD i nul))
    (low : Arrays.read array (i + 1 : Nat) = some (packet.getD (i + 1) nul)) :
    ∃ recvbuffer channel, switchChannel array i = some (recvbuffer, channel) ∧ uchar channel = hexChars packet i ∧
      ∀ k : Nat, i + 1 < k → Arrays.read recvbuffer k = Arrays.read array k := by
  have switched : switchChannel array i = some ((array.set i (switchByte (packet.getD i nul))).set (i + 1)
      (switchByte (packet.getD (i + 1) nul)),
      (((switchByte (packet.getD i nul)).toNat * 16 + (switchByte (packet.getD (i + 1) nul)).toNat : Nat) : Int)) := by
    rw [switchChannel, high, low]
    rfl
  refine ⟨_, _, switched, ?_, ?_⟩
  · rw [uchar, switchByte_toNat, switchByte_toNat, hexChars]
    omega
  · intro k beyond
    rw [Arrays.read_set_ne (by omega), Arrays.read_set_ne (by omega)]

/-- The second channel is read as it stands in the packet, after the characters of the first have been changed. -/
theorem switchChannel_socketAData {packet : List Byte} (short : packet.length + 9 ≤ usartRecLen) :
    ∃ recvbuffer old rest new, switchChannel (socketAData packet) 28 = some (recvbuffer, old) ∧
      uchar old = hexChars packet 28 ∧ switchChannel recvbuffer 30 = some (rest, new) ∧
        uchar new = hexChars packet 30 := by
  have place (i : Nat) (inside : i < 2048) := read_socketAData short inside
  obtain ⟨recvbuffer, old, switched, isOld, kept⟩ :=
    switchChannel_of (place 28 (by decide)) (place 29 (by decide))
  obtain ⟨rest, new, switched', isNew, -⟩ := switchChannel_of (i := 30)
    ((kept 30 (by decide)).trans (place 30 (by decide))) ((kept 31 (by decide)).trans (place 31 (by decide)))
  exact ⟨recvbuffer, old, rest, new, switched, isOld, switched', isNew⟩

/-- What the main thread reads is the channel that was saved. -/
theorem getChannel_saveChannel {channel : Nat} {file : List Byte} (saved : saveChannel channel = some file) :
    getChannel file = channel := by
  obtain ⟨short, rfl⟩ := Arrays.print_some saved
  have text : Decimal.text channel = Decimal.intText (channel : Int) := by
    rw [Decimal.intText, if_neg (by omega), Int.natAbs_natCast]
  rw [getChannel, List.take_of_length_le (Nat.le_of_lt short), text]
  have read : atoi (Decimal.intText (channel : Int) ++ []) = channel := atoi_intText channel (by simp [Stops])
  rwa [List.append_nil] at read

theorem saveChannel_iff (channel : Nat) : (∃ file, saveChannel channel = some file) ↔ channel < 100 := by
  have digits := Decimal.length_text_le_iff (n := channel) (w := 2) (by decide)
  rw [saveChannel]
  refine Iff.trans ?_ digits
  constructor
  · rintro ⟨file, printed⟩
    exact Nat.le_of_lt_succ (Arrays.print_some printed).1
  · intro short
    exact ⟨_, Arrays.print_eq (Nat.lt_succ_of_le short)⟩

section Settings

variable {own : Own} {packet : List Byte} (short : packet.length + 9 ≤ usartRecLen)
  (forUs : isOwn own (socketAData packet))

include short forUs

theorem bounded_time : Setting.Bounded own packet .time := by
  have whole := socketAData_length short
  rw [Setting.Bounded, Setting.run, phoneSetTime, if_pos forUs,
    Arrays.copy_eq (by decide) (by decide) (by decide) (by rw [whole]; decide)]
  exact ⟨_, rfl, fun channel none => by cases none⟩

theorem bounded_wiredNetwork : Setting.Bounded own packet .wiredNetwork := by
  obtain ⟨wired, resolved⟩ := resolveWired_socketAData short
  rw [Setting.Bounded, Setting.run, phoneSetWiredNetwork, if_pos forUs, resolved]
  cases wired with
  | dynamic => exact ⟨_, rfl, fun channel none => by cases none⟩
  | static addresses =>
    refine ⟨[.response 0x00, .staticIP addresses.text], ?_, fun channel none => by cases none⟩
    rw [Option.bind_eq_bind, Option.bind_some]
    dsimp only
    rw [Arrays.print_eq addresses.text_length, Option.bind_eq_bind, Option.bind_some]
    rfl
  | failed => exact ⟨_, rfl, fun channel none => by cases none⟩

theorem bounded_wifiPasswd_iff : Setting.Bounded own packet .wifiPasswd ↔ Setting.Orderly packet .wifiPasswd := by
  rw [← resolveWifiPasswd_iff short, Setting.Bounded, Setting.run, phoneSetWIFIPasswd, if_pos forUs]
  constructor
  · rintro ⟨changes, made, -⟩
    obtain ⟨passwords, resolved, -⟩ := Option.bind_eq_some_iff.1 made
    exact ⟨passwords, resolved⟩
  · rintro ⟨passwords, resolved⟩
    rw [resolved, Option.bind_eq_bind, Option.bind_some]
    dsimp only
    split_ifs
    · exact ⟨_, rfl, fun channel none => by cases none⟩
    · exact ⟨_, rfl, fun channel none => by cases none⟩

theorem bounded_channel_iff : Setting.Bounded own packet .channel ↔ Setting.Orderly packet .channel := by
  obtain ⟨recvbuffer, old, rest, new, switched, isOld, switched', isNew⟩ := switchChannel_socketAData short
  have run : Setting.run own (socketAData packet) .channel =
      (saveChannel (uchar old)).bind fun oldBuffer => (saveChannel (uchar new)).bind fun newBuffer =>
        some [.response 0x00, .oldChannel oldBuffer, .newChannel newBuffer, .channelFlag, .restartMain] := by
    rw [Setting.run, phoneSetChannel, if_pos forUs, switched, Option.bind_eq_bind, Option.bind_some]
    dsimp only
    rw [switched', Option.bind_some]
    rfl
  rw [Setting.Bounded, run, isOld, isNew]
  constructor
  · rintro ⟨changes, made, channels⟩
    obtain ⟨oldBuffer, oldSaved, made⟩ := Option.bind_eq_some_iff.1 made
    obtain ⟨newBuffer, newSaved, made⟩ := Option.bind_eq_some_iff.1 made
    obtain rfl := Option.some.inj made
    have first := channels (getChannel oldBuffer) (by simp [storedChannels])
    have second := channels (getChannel newBuffer) (by simp [storedChannels])
    rw [getChannel_saveChannel oldSaved] at first
    rw [getChannel_saveChannel newSaved] at second
    unfold Setting.Orderly
    omega
  · rintro ⟨⟨oldLow, oldHigh⟩, newLow, newHigh⟩
    obtain ⟨oldBuffer, oldSaved⟩ := (saveChannel_iff _).2 (Nat.lt_of_le_of_lt oldHigh (by decide))
    obtain ⟨newBuffer, newSaved⟩ := (saveChannel_iff _).2 (Nat.lt_of_le_of_lt newHigh (by decide))
    rw [oldSaved, newSaved]
    refine ⟨_, rfl, ?_⟩
    intro channel mem
    rcases List.mem_pair.1 (show channel ∈ [getChannel oldBuffer, getChannel newBuffer] from mem) with rfl | rfl
    · rw [getChannel_saveChannel oldSaved]
      omega
    · rw [getChannel_saveChannel newSaved]
      omega

end Settings

/-- **A setting** keeps to its arrays, and leaves one of the sixteen channels, exactly when its lengths say 0 to 100
and its channels 11 to 26. -/
theorem settings_bounded_iff {events : List Wifi.Event} {id packet : List Byte}
    (mem : .data .a id packet ∈ (Usart.init.steps events).log) {own : Own} {beyond : Int → Option Handler}
    {setting : Setting} (requested : Requested own beyond packet setting) :
    setting.Bounded own packet ↔ setting.Orderly packet := by
  have short := delivered_short mem
  cases setting with
  | time => exact iff_of_true (bounded_time short requested.own) trivial
  | wiredNetwork => exact iff_of_true (bounded_wiredNetwork short requested.own) trivial
  | wifiPasswd => exact bounded_wifiPasswd_iff short requested.own
  | channel => exact bounded_channel_iff short requested.own

def sampleOwn : Own :=
  ⟨str "216000000001", str "20180131120000", str "88888888"⟩

/-- A change of channel. -/
def sampleChannel (channels : List Byte) : List Byte :=
  str "APS1100350015216000000001END" ++ channels ++ str "END"

theorem sampleChannel_tail (channels : List Byte) : str "END" <:+ str "a12345678" ++ sampleChannel channels := by
  rw [sampleChannel, ← List.append_assoc]
  exact List.suffix_append _ _

theorem sampleChannel_wellFormed {channels : List Byte} (sample : channels = str "1019" ∨ channels = str "FFFF") :
    WellFormed .a (str "a12345678" ++ sampleChannel channels) := by
  rcases sample with rfl | rfl
  · exact ⟨rfl, by decide +kernel, rfl, by decide +kernel, by decide +kernel, sampleChannel_tail _⟩
  · exact ⟨rfl, by decide +kernel, rfl, by decide +kernel, by decide +kernel, sampleChannel_tail _⟩

theorem sampleChannel_delivered {channels : List Byte} (sample : channels = str "1019" ∨ channels = str "FFFF") :
    .data .a (str "12345678") (sampleChannel channels) ∈
      (Usart.init.steps (arrive (str "a12345678" ++ sampleChannel channels) ++ calls 2)).log := by
  refine (packet_delivered (sampleChannel_wellFormed sample) ?_).2
  rcases sample with rfl | rfl <;> decide +kernel

theorem sampleChannel_requested {channels : List Byte} (sample : channels = str "1019" ∨ channels = str "FFFF") :
    Requested sampleOwn (fun _ => none) (sampleChannel channels) .channel := by
  have resolved : resolveRecvData (sampleChannel channels) = some (35, 15) := by
    rcases sample with rfl | rfl <;> decide +kernel
  refine ⟨⟨⟨15, some .setChannel, 35⟩, by rw [processWifi, resolved]; rfl, rfl⟩, ?_⟩
  rcases sample with rfl | rfl <;> decide +kernel

theorem settings_bounded_sample : Setting.channel.Bounded sampleOwn (sampleChannel (str "1019")) ↔
    Setting.channel.Orderly (sampleChannel (str "1019")) :=
  settings_bounded_iff (sampleChannel_delivered (.inl rfl)) (sampleChannel_requested (.inl rfl))

/-- The channel `FF` is 255, whose text and end are four bytes. -/
theorem channel_text_overruns : ¬ ∀ (events : List Wifi.Event) (id packet : List Byte) (own : Own)
    (beyond : Int → Option Handler) (setting : Setting), .data .a id packet ∈ (Usart.init.steps events).log →
      Requested own beyond packet setting → setting.Bounded own packet := by
  intro all
  obtain ⟨changes, made, -⟩ := all _ _ _ _ _ _ (sampleChannel_delivered (.inr rfl))
    (sampleChannel_requested (.inr rfl))
  have none : Setting.channel.run sampleOwn (socketAData (sampleChannel (str "FFFF"))) = none := by
    decide +kernel
  rw [none] at made
  cases made

end Ecu.Phone
