import SzpiSta.ExternalCalls
import SzpiSta.FileCalls

/-!
# Firmware upgrade from a file

The functions of upgrade.c, as programs over the calls they make to the
bootloader, the flash map, the file system and the heap.  Sizes and offsets are
the 32-bit `size_t` of the target.  Lines printed for diagnosis are left out:
nothing reads them back.

The environment below is the contract of those calls.  A flash area is named by
its partition id, the opened file by its content and the position in it.
-/

namespace SzpiSta

namespace Upgrade

open ExternalCalls ExternalCalls.Program

/-- `CHUNK_SIZE`. -/
def chunkSize : UInt32 := 1024

/-- The ids the build assigns to the two image partitions. -/
structure Partitions where
  slot0Partition : UInt8
  slot1Partition : UInt8
  distinct : slot0Partition ≠ slot1Partition

/-- `SLOT0_PART_ID`. -/
def slot0PartId (parts : Partitions) : UInt8 := parts.slot0Partition

/-- `SLOT1_PART_ID`.  The macro names the partition label `slot0_partition`. -/
def slot1PartId (parts : Partitions) : UInt8 := parts.slot0Partition

inductive Call where
  | bootFetchActiveSlot
  | fsStat (path : CString)
  | flashAreaOpen (id : UInt8)
  | fsOpen (path : CString) (flags : OpenFlags)
  | flashAreaErase (id : UInt8) (offset size : UInt32)
  | kMalloc (size : UInt32)
  | fsRead (count : UInt32)
  | flashAreaWrite (id : UInt8) (offset : UInt32) (data : List UInt8)
  | kFree
  | fsClose
  | flashAreaClose (id : UInt8)
  | bootRequestUpgrade
  | kMsleep (ms : Nat)
  | sysReboot
  deriving DecidableEq

/-- The answers: return codes, the entry `fs_stat` fills in, whether `k_malloc`
returned a buffer. -/
@[reducible]
def Call.Answer : Call → Type
  | .bootFetchActiveSlot => UInt8
  | .fsStat _ => Int × FsDirent
  | .flashAreaOpen _ => Int
  | .fsOpen _ _ => Int
  | .flashAreaErase _ _ _ => Int
  | .kMalloc _ => Bool
  | .fsRead count => ReadAnswer count.toNat
  | .flashAreaWrite _ _ _ => Int
  | .kFree => Unit
  | .fsClose => Unit
  | .flashAreaClose _ => Unit
  | .bootRequestUpgrade => Int
  | .kMsleep _ => Unit
  | .sysReboot => Unit

abbrev UpgradeProgram := Program Call Call.Answer

abbrev ask (call : Call) : UpgradeProgram call.Answer := request call

def getUpgradeTargetPartitionId (parts : Partitions) :
    UpgradeProgram UInt8 := do
  let activeAreaId ← ask .bootFetchActiveSlot
  if activeAreaId = slot0PartId parts then
    return slot1PartId parts
  else
    return slot0PartId parts

/-- One turn of the copy loop.  It leaves with `none` where the source falls
out of the loop, by its condition or by `break`, and with `some rc` where the
source jumps to `cleanup` with `rc`. -/
def copyChunk (fa : UInt8) (fileSize writeOffset : UInt32) :
    UpgradeProgram (LoopStep UInt32 (Option Int)) := do
  if writeOffset < fileSize then
    let bytesToRead := min chunkSize (fileSize - writeOffset)
    match ← ask (.fsRead bytesToRead) with
    | .error bytesRead _ => return .leave (some bytesRead)
    | .data readBuf _ =>
      if readBuf.length = 0 then
        return .leave none
      let rc ← ask (.flashAreaWrite fa writeOffset readBuf)
      if rc < 0 then
        return .leave (some rc)
      return .again (writeOffset + UInt32.ofNat readBuf.length)
  else
    return .leave none

/-- `(file_stat.size + 4095) & ~4095`. -/
def eraseSize (fileSize : UInt32) : UInt32 := (fileSize + 4095) &&& ~~~4095

/-- The label `cleanup`. -/
def cleanup (fa : UInt8) (readBuf : Bool) (rc : Int) : UpgradeProgram Int := do
  if readBuf then
    ask .kFree
  ask .fsClose
  ask (.flashAreaClose fa)
  return rc

/-- Every turn of the copy loop that goes on writes at least one byte, so a
fuel above the file size never cuts it short. -/
def copyFile (fa : UInt8) (fileSize : UInt32) :
    UpgradeProgram (Option Int) :=
  loop (copyChunk fa fileSize) (fileSize.toNat + 1) 0

/-- `write_ota_file_to_partition` once partition and file are open: its steps
4 to 6 and the clean-up. -/
def writeOpenedFile (partitionId : UInt8) (fileSize : UInt32) :
    UpgradeProgram Int := do
  let rc ← ask (.flashAreaErase partitionId 0 (eraseSize fileSize))
  if rc < 0 then
    return ← cleanup partitionId false rc
  let readBuf ← ask (.kMalloc chunkSize)
  if ¬ readBuf then
    return ← cleanup partitionId false (-eNoMem)
  match ← copyFile partitionId fileSize with
  | some rc => cleanup partitionId true rc
  | none => cleanup partitionId true 0

def writeOtaFileToPartition (filePath : CString) (partitionId : UInt8) :
    UpgradeProgram Int := do
  let (rc, fileStat) ← ask (.fsStat filePath)
  if rc < 0 then
    return rc
  if fileStat.type ≠ .file ∨ fileStat.size = 0 then
    return -eInval
  let rc ← ask (.flashAreaOpen partitionId)
  if rc < 0 then
    return rc
  let rc ← ask (.fsOpen filePath { read := true })
  if rc < 0 then
    ask (.flashAreaClose partitionId)
    return rc
  writeOpenedFile partitionId fileStat.size

def triggerUpgrade : UpgradeProgram Unit := do
  let rc ← ask .bootRequestUpgrade
  if rc < 0 then
    return
  ask (.kMsleep 100)
  ask .sysReboot

def performOtaUpgradeFromFile (parts : Partitions) (binFilePath : CString) :
    UpgradeProgram Unit := do
  let targetPartitionId ← getUpgradeTargetPartitionId parts
  let rc ← writeOtaFileToPartition binFilePath targetPartitionId
  if rc = 0 then
    triggerUpgrade

/-- The shell command: the image named by the first argument, or
`zephyr.bin`. -/
def cmdUpgrade (parts : Partitions) (argv : List CString) : UpgradeProgram Int := do
  let imagePath := argv[1]?.getD (cString "zephyr.bin")
  performOtaUpgradeFromFile parts (snprintfFullPath fatfsGetRootPath imagePath)
  return 0

/-- The slot whose image is running. -/
inductive Slot where
  | slot0
  | slot1
  deriving DecidableEq, Repr

/-- The partition of a slot, as the bootloader reports it. -/
def Partitions.id (parts : Partitions) : Slot → UInt8
  | .slot0 => parts.slot0Partition
  | .slot1 => parts.slot1Partition

/-- A file: what `fs_stat` reports of it, and what reading it brings. -/
structure FileEntry where
  stat : FsDirent
  content : List UInt8

structure World where
  running : Slot
  files : CString → Option FileEntry
  file : Option (List UInt8 × Nat)
  flash : UInt8 → Nat → UInt8

/-- Nothing but the bytes `[offset, offset + length)` of partition `id` may
differ. -/
structure OnlyRange (id : UInt8) (offset length : Nat) (before after : World) :
    Prop where
  running : after.running = before.running
  files : after.files = before.files
  file : after.file = before.file
  outside : ∀ other index,
    ¬ (other = id ∧ offset ≤ index ∧ index < offset + length) →
      after.flash other index = before.flash other index

def environment (parts : Partitions) : Environment Call.Answer World where
  answers
    | before, .bootFetchActiveSlot, id, after =>
        id = parts.id before.running ∧ after = before
    | before, .fsStat path, (rc, dirent), after =>
        after = before ∧
          (0 ≤ rc → (before.files path).map FileEntry.stat = some dirent)
    | before, .fsOpen path _, rc, after =>
        if rc < 0 then after = before
        else ∃ entry, before.files path = some entry ∧
          after = { before with file := some (entry.content, 0) }
    | before, .flashAreaErase id offset size, rc, after =>
        OnlyRange id offset.toNat size.toNat before after ∧
          (0 ≤ rc → ∀ index < size.toNat,
            after.flash id (offset.toNat + index) = 0xff)
    | before, .fsRead count, answer, after =>
        match answer with
        | .error _ _ => after = before
        | .data bytes _ => ∃ content position,
            before.file = some (content, position) ∧
            ReadsOn content position count.toNat bytes ∧
            after =
              { before with file := some (content, position + bytes.length) }
    | before, .flashAreaWrite id offset data, rc, after =>
        OnlyRange id offset.toNat data.length before after ∧
          (0 ≤ rc → ∀ (index : Nat) (inside : index < data.length),
            after.flash id (offset.toNat + index) = data[index])
    | before, .fsClose, _, after => after = { before with file := none }
    | before, .flashAreaOpen _, _, after => after = before
    | before, .kMalloc _, _, after => after = before
    | before, .kFree, _, after => after = before
    | before, .flashAreaClose _, _, after => after = before
    | before, .bootRequestUpgrade, _, after => after = before
    | before, .kMsleep _, _, after => after = before
    | before, .sysReboot, _, after => after = before

end Upgrade

end SzpiSta
