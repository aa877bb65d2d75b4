import Ecu.Poll.Query

/-!
# Sending firmware (`remote_update.c`)

A first pass sends the whole file in packages of 64 bytes; then the inverter reports the packages that it misses, one
after the other, and each is sent again. Both passes find name, place and checksum for themselves.
-/

namespace Ecu.Update

open Poll

/-! ## Frames -/

/-- `check`: the bytes 2 to 69. -/
def frameCheck (sendbuff : List Byte) : Nat :=
  (((sendbuff.drop 2).take 68).map UInt8.toNat).sum % 2 ^ 16

/-- A package in its frame. -/
def packageFrame (command high low : Byte) (packageBuff : List Byte) : List Byte :=
  let sendbuff := [0xFC, 0xFC, 0x02, command, high, low] ++ packageBuff.take 64
  sendbuff ++ [UInt8.ofNat (frameCheck sendbuff / 256), UInt8.ofNat (frameCheck sendbuff), 0xFE, 0xFE]

/-- `checkbuff` -/
def checkFrame : List Byte :=
  [0xFC, 0xFC, 0x04, 0x20] ++ List.replicate 68 nul ++ [0xFE, 0xFE]

/-- The number of a package, in a frame or in a report. -/
def packageNumber (data : List Byte) : Nat :=
  byteAt data 4 * 256 + byteAt data 5

/-- The 64 bytes in a frame. -/
def packageData (frame : List Byte) : List Byte :=
  (frame.drop 6).take 64

/-- The checksum in a frame. -/
def packageCheck (frame : List Byte) : Nat :=
  byteAt frame 70 * 256 + byteAt frame 71

/-! ## The first pass -/

/-- The file that `Sendupdatepackage_single` opens. -/
def firmware (model : Nat) : Option String :=
  if model = 1 ∨ model = 2 then some "/home/UPYC250.BIN"
  else if model = 3 ∨ model = 4 then some "/home/UP500.BIN"
  else if model = 5 ∨ model = 6 then some "/home/UP1000.BIN"
  else if model = 7 then some "/home/UP600.BIN"
  else none

/-- The loop of `Sendupdatepackage_single`: the frames, as far as the fuel goes. `packageBuff` is cleared only after a
package was sent. -/
def sendPackages : Nat → Nat → List Byte → List Byte → List (List Byte)
  | 0, _, _, _ => []
  | fuel + 1, packageNum, packageBuff, file =>
    if file = [] then []
    else
      packageFrame 0x40 (UInt8.ofNat (packageNum / 256)) (UInt8.ofNat packageNum) (memcpy packageBuff (file.take 64)) ::
        sendPackages fuel (packageNum + 1) (List.replicate 100 nul) (file.drop 64)

/-- `Sendupdatepackage_single`: its result and the frames. `packageBuff` is what the buffer holds at first. -/
def sendupdatepackageSingle (disk : String → Option (List Byte)) (packageBuff : List Byte) (model : Nat) :
    Int × List (List Byte) :=
  match firmware model with
  | none => (-1, [])
  | some name =>
    match disk name with
    | none => (-2, [])
    | some file => (1, sendPackages file.length 0 packageBuff file)

/-! ## The packages that are missing -/

/-- The file that `Complementupdatepackage_single` opens. -/
def complementFirmware (model : Nat) : Option String :=
  if model = 1 ∨ model = 2 then some "/home/UPYC250.BIN"
  else if model = 3 ∨ model = 4 then some "/home/UPYC500.BIN"
  else if model = 5 ∨ model = 6 then some "/home/UPYC1000.BIN"
  else if model = 7 then some "/home/UPYC600.BIN"
  else none

/-- A frame of twelve bytes with this command. -/
def Report (command : Nat) (data : List Byte) : Prop :=
  data.length = 12 ∧ byteAt data 3 = command ∧ byteAt data 0 = 0xFB ∧ byteAt data 1 = 0xFB ∧ byteAt data 10 = 0xFE ∧
    byteAt data 11 = 0xFE

instance (command : Nat) (data : List Byte) : Decidable (Report command data) :=
  inferInstanceAs (Decidable (_ ∧ _))

/-- How many packages are missing. -/
def missing (data : List Byte) : Nat :=
  byteAt data 6 * 256 + byteAt data 7

/-- The package of a report, sent again. -/
def complementFrame (file data : List Byte) : List Byte :=
  packageFrame 0x4F (data.getD 4 nul) (data.getD 5 nul)
    (memcpy (List.replicate 100 nul) ((file.drop (packageNumber data * 64)).take 64))

/-- The loops that send packages again, each up to ten times: the frames and the result. `none` stands for a run that
goes on when the replies end. -/
def complementLoop (file : List Byte) : List Byte → Nat → List (Option (List Byte)) → List (List Byte) × Option Int
  | data, _, [] => ([complementFrame file data], none)
  | data, i, reply :: replies =>
    let (sent, ret) :=
      match reply.filter (Report 0x24 ·) with
      | some next => if missing next = 0 then ([], some 1) else complementLoop file next 0 replies
      | none => if i + 1 ≥ 10 then ([], some (-1)) else complementLoop file data (i + 1) replies
    (complementFrame file data :: sent, ret)

/-- What follows the last request for a report. -/
def complementAfter (disk : String → Option (List Byte)) (model : Nat) (reply : Option (List Byte))
    (replies : List (Option (List Byte))) : List (List Byte) × Option Int :=
  match reply.filter (Report 0x42 ·) with
  | some data =>
    match (complementFirmware model).bind disk with
    | some file => if missing data = 0 then ([], some 1) else complementLoop file data 0 replies
    | none => ([], some 1)
  | none => if (reply.filter (Report 0x45 ·)).isSome then ([], some (-1)) else ([], some 0)

/-- `Complementupdatepackage_single`: its frames and its result. It asks up to five times for a report. -/
def complementupdatepackageSingle (disk : String → Option (List Byte)) (model : Nat) (i : Nat) :
    List (Option (List Byte)) → List (List Byte) × Option Int
  | [] => ([checkFrame], none)
  | reply :: replies =>
    let (sent, ret) :=
      if (reply.map List.length) ≠ some 12 ∧ i + 1 < 5 then complementupdatepackageSingle disk model (i + 1) replies
      else complementAfter disk model reply replies
    (checkFrame :: sent, ret)

/-! ## What a frame holds -/

theorem packageFrame_number (command high low : Byte) (packageBuff : List Byte) :
    packageNumber (packageFrame command high low packageBuff) = high.toNat * 256 + low.toNat :=
  rfl

section Frame

variable {command high low : Byte} {packageBuff : List Byte} (full : (packageBuff.take 64).length = 64)

include full

theorem packageFrame_data : packageData (packageFrame command high low packageBuff) = packageBuff.take 64 := by
  rw [packageData, packageFrame, List.append_assoc]
  exact List.take_left' full

theorem packageFrame_check : packageCheck (packageFrame command high low packageBuff) =
    (2 + command.toNat + high.toNat + low.toNat + ((packageBuff.take 64).map UInt8.toNat).sum) % 2 ^ 16 := by
  obtain ⟨sendbuff, same⟩ : ∃ sendbuff, [0xFC, 0xFC, 0x02, command, high, low] ++ packageBuff.take 64 =
    sendbuff := ⟨_, rfl⟩
  have length : sendbuff.length = 70 := by
    rw [← same, List.length_append, full]
    rfl
  have small : frameCheck sendbuff < 65536 := Nat.mod_lt _ (by decide)
  have first : packageCheck (packageFrame command high low packageBuff) = frameCheck sendbuff := by
    rw [packageCheck, packageFrame, same, byteAt, byteAt, List.getD_append_right _ _ _ _ length.le,
      List.getD_append_right _ _ _ _ (by omega), length]
    change (UInt8.ofNat (frameCheck sendbuff / 256)).toNat * 256 + (UInt8.ofNat (frameCheck sendbuff)).toNat = _
    rw [UInt8.toNat_ofNat', UInt8.toNat_ofNat']
    omega
  rw [first, frameCheck, ← same]
  congr 1
  rw [List.take_of_length_le (by simp [full])]
  simp only [List.cons_append, List.nil_append, List.drop_succ_cons, List.drop_zero, List.map_cons, List.sum_cons]
  change 2 + _ = _
  omega

end Frame

/-- A package of the first pass. -/
theorem getElem?_sendPackages {n fuel : Nat} (num : Nat) (packageBuff : List Byte) {file : List Byte}
    (enough : file.length ≤ fuel)
    (inside : n * 64 < file.length) : (sendPackages fuel num packageBuff file)[n]? =
      some (packageFrame 0x40 (UInt8.ofNat ((num + n) / 256)) (UInt8.ofNat (num + n))
        (memcpy (if n = 0 then packageBuff else List.replicate 100 nul) ((file.drop (n * 64)).take 64))) := by
  induction n generalizing fuel num packageBuff file with
  | zero =>
    obtain ⟨fuel, rfl⟩ := Nat.exists_eq_add_of_lt (Nat.lt_of_lt_of_le inside enough)
    rw [Nat.zero_mul, Nat.zero_add, sendPackages, if_neg (List.ne_nil_of_length_pos (by omega))]
    rfl
  | succ n ih =>
    obtain ⟨fuel, rfl⟩ := Nat.exists_eq_add_of_lt (Nat.lt_of_lt_of_le inside enough)
    have length : (file.drop 64).length = file.length - 64 := List.length_drop
    rw [sendPackages, if_neg (List.ne_nil_of_length_pos (by omega)), List.getElem?_cons_succ,
      ih _ _ (by omega) (by omega),
      ite_self, if_neg (Nat.succ_ne_zero n), List.drop_drop, Nat.add_right_comm num 1 n, Nat.add_assoc num n 1,
      Nat.add_comm 64, ← Nat.succ_mul]

/-- Each frame that the loops send again is the package of a report. -/
theorem complementLoop_frames {file : List Byte} {replies : List (Option (List Byte))} {data : List Byte} {i : Nat} :
    ∀ frame ∈ (complementLoop file data i replies).1, frame = complementFrame file data ∨
      ∃ next, some next ∈ replies ∧ frame = complementFrame file next := by
  induction replies generalizing data i with
  | nil => exact fun frame mem => .inl (List.mem_singleton.1 mem)
  | cons reply replies ih =>
    intro frame mem
    rw [complementLoop] at mem
    dsimp only at mem
    rcases List.mem_cons.1 mem with here | later
    · exact .inl here
    · cases acknowledged : reply.filter (Report 0x24 ·) with
      | none =>
        rw [acknowledged] at later
        dsimp only at later
        split_ifs at later with given
        · exact absurd later List.not_mem_nil
        · exact (ih frame later).imp_right fun ⟨next, there, same⟩ => ⟨next, List.mem_cons_of_mem reply there, same⟩
      | some next =>
        have own : reply = some next := (Option.filter_eq_some_iff.1 acknowledged).1
        rw [acknowledged] at later
        dsimp only at later
        split_ifs at later with done
        · exact absurd later List.not_mem_nil
        · rcases ih frame later with same | ⟨other, there, same⟩
          · exact .inr ⟨next, own ▸ List.mem_cons_self, same⟩
          · exact .inr ⟨other, List.mem_cons_of_mem reply there, same⟩

/-- What `Complementupdatepackage_single` sends: requests for a report, and the packages of reports. -/
theorem complementupdatepackage_frames {disk : String → Option (List Byte)} {model i : Nat}
    {replies : List (Option (List Byte))} :
    ∀ frame ∈ (complementupdatepackageSingle disk model i replies).1, frame = checkFrame ∨
      ∃ file data, (complementFirmware model).bind disk = some file ∧ some data ∈ replies ∧
        frame = complementFrame file data := by
  induction replies generalizing i with
  | nil => exact fun frame mem => .inl (List.mem_singleton.1 mem)
  | cons reply replies ih =>
    intro frame mem
    rw [complementupdatepackageSingle] at mem
    dsimp only at mem
    rcases List.mem_cons.1 mem with here | later
    · exact .inl here
    · split_ifs at later with again
      · exact (ih frame later).imp_right fun ⟨file, data, opened, there, same⟩ =>
          ⟨file, data, opened, List.mem_cons_of_mem reply there, same⟩
      · right
        rw [complementAfter] at later
        cases reported : reply.filter (Report 0x42 ·) with
        | none =>
          rw [reported] at later
          dsimp only at later
          split_ifs at later
          · exact absurd later List.not_mem_nil
          · exact absurd later List.not_mem_nil
        | some data =>
          have own : reply = some data := (Option.filter_eq_some_iff.1 reported).1
          cases opened : (complementFirmware model).bind disk with
          | none =>
            rw [reported, opened] at later
            exact absurd later List.not_mem_nil
          | some file =>
            rw [reported, opened] at later
            dsimp only at later
            split_ifs at later with done
            · exact absurd later List.not_mem_nil
            · rcases complementLoop_frames frame later with same | ⟨next, there, same⟩
              · exact ⟨file, data, rfl, own ▸ List.mem_cons_self, same⟩
              · exact ⟨file, next, rfl, List.mem_cons_of_mem reply there, same⟩

/-! ## Both passes -/

theorem take_memcpy_zeros {chunk : List Byte} (short : chunk.length ≤ 64) :
    ((memcpy (List.replicate 100 nul) chunk).take 64).length = 64 := by
  rw [memcpy, List.length_take, List.length_append, List.length_drop, List.length_replicate]
  omega

/-- Only the first package can have something else behind the file than zeros, and only if it is not full. -/
theorem take_memcpy_first {file : List Byte} (packageBuff : List Byte) (full : 64 ≤ file.length) (n : Nat) :
    (memcpy (if n = 0 then packageBuff else List.replicate 100 nul) ((file.drop (n * 64)).take 64)).take 64 =
      (memcpy (List.replicate 100 nul) ((file.drop (n * 64)).take 64)).take 64 := by
  split_ifs with zero
  · have whole : ((file.drop (n * 64)).take 64).length = 64 := by
      rw [zero, Nat.zero_mul, List.drop_zero, List.length_take, Nat.min_eq_left full]
    rw [memcpy, memcpy, List.take_left' whole, List.take_left' whole]
  · rfl

/-- Where both passes read the same file, a package that was reported missing is sent again with the bytes of the first
pass. The checksum counts the command, which is `0x4F` instead of `0x40`. -/
theorem resent_package {disk : String → Option (List Byte)} {packageBuff : List Byte} {model : Nat}
    {replies : List (Option (List Byte))} {file frame : List Byte} (first : (firmware model).bind disk = some file)
    (second : (complementFirmware model).bind disk = some file) (full : 64 ≤ file.length)
    (sent : frame ∈ (complementupdatepackageSingle disk model 0 replies).1) (package : frame ≠ checkFrame) :
    ∃ data, some data ∈ replies ∧ packageNumber frame = packageNumber data ∧
      (packageNumber data * 64 < file.length →
        ∃ earlier, (sendupdatepackageSingle disk packageBuff model).2[packageNumber data]? = some earlier ∧
          packageNumber earlier = packageNumber data ∧ packageData frame = packageData earlier ∧
          packageCheck frame = (packageCheck earlier + 15) % 2 ^ 16) := by
  rcases complementupdatepackage_frames frame sent with check | ⟨file', data, opened, reported, rfl⟩
  · exact absurd check package
  · obtain rfl : file = file' := Option.some_inj.1 (second.symm.trans opened)
    refine ⟨data, reported, rfl, fun inside => ?_⟩
    obtain ⟨n, number⟩ : ∃ n, packageNumber data = n := ⟨_, rfl⟩
    rw [number] at inside ⊢
    obtain ⟨name, known, content⟩ := Option.bind_eq_some_iff.1 first
    have pass : (sendupdatepackageSingle disk packageBuff model).2 = sendPackages file.length 0 packageBuff file := by
      rw [sendupdatepackageSingle, known]
      dsimp only
      rw [content]
    have bytes : n = (data.getD 4 nul).toNat * 256 + (data.getD 5 nul).toNat := number.symm
    have high := (data.getD 4 nul).toNat_lt
    have low := (data.getD 5 nul).toNat_lt
    have highByte : UInt8.ofNat (n / 256) = data.getD 4 nul := by
      apply UInt8.toNat.inj
      rw [UInt8.toNat_ofNat']
      omega
    have lowByte : UInt8.ofNat n = data.getD 5 nul := by
      apply UInt8.toNat.inj
      rw [UInt8.toNat_ofNat']
      omega
    have earlier := getElem?_sendPackages 0 packageBuff (Nat.le_refl file.length) inside
    rw [Nat.zero_add, highByte, lowByte, ← pass] at earlier
    have chunk : ((file.drop (n * 64)).take 64).length ≤ 64 := List.length_take_le 64 _
    have same := take_memcpy_first packageBuff full n
    have whole := take_memcpy_zeros chunk
    have wholeFirst := whole
    rw [← same] at wholeFirst
    refine ⟨_, earlier, ?_, ?_, ?_⟩
    · rw [packageFrame_number]
      exact bytes.symm
    · rw [complementFrame, number, packageFrame_data whole, packageFrame_data wholeFirst, same]
    · rw [complementFrame, number, packageFrame_check whole, packageFrame_check wholeFirst, same]
      change (2 + 79 + _ + _ + _) % 2 ^ 16 = ((2 + 64 + _ + _ + _) % 2 ^ 16 + 15) % 2 ^ 16
      omega

/-! ## Examples -/

/-- A file of one full package and a part of one. -/
def sampleFile : List Byte :=
  List.replicate 100 0x11

def sampleDisk (name : String) : Option (List Byte) :=
  if name = "/home/UPYC250.BIN" then some sampleFile else none

/-- The second package is missing, and no other. -/
def sampleReport : List Byte :=
  [0xFB, 0xFB, 0x04, 0x42, 0x00, 0x01, 0x00, 0x01, 0x00, 0x00, 0xFE, 0xFE]

def sampleReplies : List (Option (List Byte)) :=
  [some sampleReport, some [0xFB, 0xFB, 0x04, 0x24, 0x00, 0x00, 0x00, 0x00, 0x00, 0x00, 0xFE, 0xFE]]

theorem sampleDisk_opened : (firmware 1).bind sampleDisk = some sampleFile ∧
    (complementFirmware 1).bind sampleDisk = some sampleFile := by
  simp [firmware, complementFirmware, sampleDisk]

theorem sampleReplies_sent :
    complementFrame sampleFile sampleReport ∈ (complementupdatepackageSingle sampleDisk 1 0 sampleReplies).1 ∧
      complementFrame sampleFile sampleReport ≠ checkFrame := by
  decide +kernel

theorem resent_package_sample :
    ∃ data, some data ∈ sampleReplies ∧ packageNumber (complementFrame sampleFile sampleReport) = packageNumber data ∧
      (packageNumber data * 64 < sampleFile.length →
        ∃ earlier, (sendupdatepackageSingle sampleDisk [] 1).2[packageNumber data]? = some earlier ∧
          packageNumber earlier = packageNumber data ∧
          packageData (complementFrame sampleFile sampleReport) = packageData earlier ∧
          packageCheck (complementFrame sampleFile sampleReport) = (packageCheck earlier + 15) % 2 ^ 16) :=
  resent_package sampleDisk_opened.1 sampleDisk_opened.2 (by decide) sampleReplies_sent.1 sampleReplies_sent.2

/-- The checksum of a package that is sent again is another one. -/
theorem resent_check : ¬ ∀ (disk : String → Option (List Byte)) (packageBuff : List Byte) (model n : Nat)
    (data earlier frame : List Byte) (replies : List (Option (List Byte))), some data ∈ replies →
      packageNumber data = n → (sendupdatepackageSingle disk packageBuff model).2[n]? = some earlier →
      frame ∈ (complementupdatepackageSingle disk model 0 replies).1 → frame ≠ checkFrame → packageNumber frame = n →
      packageData frame = packageData earlier ∧ packageCheck frame = packageCheck earlier := by
  intro claim
  have earlier : (sendupdatepackageSingle sampleDisk [] 1).2[1]? =
      some (packageFrame 0x40 0x00 0x01 (List.replicate 36 0x11 ++ List.replicate 64 nul)) := by
    decide +kernel
  have same := (claim sampleDisk [] 1 1 sampleReport _ _ sampleReplies List.mem_cons_self rfl earlier
    sampleReplies_sent.1 sampleReplies_sent.2 rfl).2
  revert same
  decide +kernel

end Ecu.Update
