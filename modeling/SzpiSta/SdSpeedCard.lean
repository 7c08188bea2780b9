import Mathlib.Logic.Function.Basic
import SzpiSta.SdSpeedBytes

/-!
# What a speed test leaves on the card

The test works on one file, which it writes, reads back and removes.  On a card
that gives back what it was given a finished test has handled the same number of
bytes both times, and its file is gone unless the card refuses to remove it.  A
test that fails after it has written leaves its file on the card.

As in the model of the command, the count of a write stands for its data, so a
file is its size.
-/

namespace SzpiSta

namespace SdSpeed

open ExternalCalls ExternalCalls.Program

/-- The sizes of the files, and the file that is open. -/
structure Disk where
  sizes : CString → Option Nat
  file : Option OpenFile

/-- The file is written on from its position. -/
def Disk.write (disk : Disk) (file : OpenFile) (size count : Nat) : Disk where
  sizes := Function.update disk.sizes file.path
    (some (max size (file.position + count)))
  file := some { file with position := file.position + count }

/-- A file opened for writing keeps its content, and is accessed from its
start. -/
def Disk.openFile (disk : Disk) (path : CString) : Disk where
  sizes := Function.update disk.sizes path (some ((disk.sizes path).getD 0))
  file := some ⟨path, 0⟩

/-- A card that keeps what it is given.  A write that fails may have stored a
part of its data.  What the other calls answer is open. -/
def diskCalls : Environment Call.Answer Disk where
  answers
    | before, .fsUnlink path, res, after =>
        if res = 0 then (before.sizes path).isSome ∧
          after = { before with sizes := Function.update before.sizes path none }
        else after = before
    | before, .fsOpen path flags, ret, after =>
        if ret < 0 then after = before
        else (flags.create = false → (before.sizes path).isSome) ∧
          after = before.openFile path
    | before, .fsWrite _, answer, after =>
        ∃ file size, before.file = some file ∧
          before.sizes file.path = some size ∧
          match answer with
          | .error _ _ => ∃ part, after = before.write file size part
          | .stored written _ => after = before.write file size written
    | before, .fsRead count, answer, after =>
        match answer with
        | .error _ _ => after.sizes = before.sizes
        | .data bytes _ => ∃ file size, before.file = some file ∧
            before.sizes file.path = some size ∧
            file.position + bytes.length ≤ max size file.position ∧
            (bytes = [] → 0 < count → size ≤ file.position) ∧
            after = { before with
              file := some { file with position := file.position + bytes.length } }
    | before, .fsClose, _, after => after = { before with file := none }
    | before, .shellError _, _, after | before, .shellPrint _, _, after
    | before, .reportSpeed _ _, _, after | before, .kMalloc _, _, after
    | before, .kUptimeGet, _, after | before, .fsSync, _, after
    | before, .kFree, _, after => after = before

/-- The command has the file open at a position, and the other files are those
it has found. -/
structure InFile (path : CString) (start : Disk) (position size : Nat)
    (disk : Disk) : Prop where
  file : disk.file = some ⟨path, position⟩
  size : disk.sizes path = some size
  others : ∀ other, other ≠ path → disk.sizes other = start.sizes other

/-- The file is left with `kept` bytes or more, and the other files are those
the command has found. -/
structure KeepsFile (path : CString) (start : Disk) (kept : Nat) (disk : Disk) :
    Prop where
  size : ∃ size, disk.sizes path = some size ∧ kept ≤ size
  others : ∀ other, other ≠ path → disk.sizes other = start.sizes other

section Loops

variable {path : CString} {start disk : Disk} {file : OpenFile}
variable {position old size found count kept : Nat}
variable {bufSize total done : UInt32} {trace : Trace} {fuel : Nat}

theorem InFile.write (inFile : InFile path start position size disk)
    (opened : disk.file = some file) (has : disk.sizes file.path = some found) :
    InFile path start (position + count) (max size (position + count))
      (disk.write file found count) := by
  obtain ⟨same, length, others⟩ := inFile
  obtain rfl : file = ⟨path, position⟩ := Option.some.inj (opened.symm.trans same)
  obtain rfl : found = size := Option.some.inj (has.symm.trans length)
  refine ⟨rfl, Function.update_self .., fun other apart => ?_⟩
  exact (Function.update_of_ne apart ..).trans (others other apart)

theorem InFile.read (inFile : InFile path start position size disk)
    (opened : disk.file = some file) :
    InFile path start (position + count) size
      { disk with file := some { file with position := file.position + count } } := by
  obtain ⟨same, length, others⟩ := inFile
  obtain rfl : file = ⟨path, position⟩ := Option.some.inj (opened.symm.trans same)
  exact ⟨rfl, length, others⟩

theorem InFile.keepsFile (inFile : InFile path start position size disk)
    (enough : kept ≤ size) : KeepsFile path start kept disk :=
  ⟨⟨size, inFile.size, enough⟩, inFile.others⟩

/-- The write loop has written `done` bytes. -/
structure Writing (path : CString) (start : Disk) (old : Nat)
    (bufSize total done : UInt32) (trace : Trace) (disk : Disk) : Prop where
  inFile : InFile path start done.toNat (max old done.toNat) disk
  written : bytesIn Event.written trace = done.toNat
  readBack : bytesIn Event.readBack trace = 0
  inside : done ≤ total
  buffer : 0 < done → 0 < bufSize

/-- How the write loop is left. -/
def WritesLeave (path : CString) (start : Disk) (old : Nat)
    (bufSize total : UInt32) (trace : Trace) (disk : Disk) :
    Except Int UInt32 → Prop
  | .ok _ => Writing path start old bufSize total total trace disk
  | .error _ => KeepsFile path start (bytesIn Event.written trace) disk

/-- A chunk is no longer than the buffer. -/
theorem buffer_of_amount {amount : Nat} (positive : 0 < amount)
    (fits : amount ≤ (chunk bufSize total done).toNat) : 0 < bufSize := by
  have within : (chunk bufSize total done).toNat ≤ bufSize.toNat := by
    unfold chunk
    rw [UInt32.min_def]
    split
    · rename_i smaller
      exact UInt32.le_iff_toNat_le.mp smaller
    · exact Nat.le_refl _
  rw [UInt32.lt_iff_toNat_lt]
  exact Nat.lt_of_lt_of_le positive (Nat.le_trans fits within)

theorem writeTurn_disk
    (writing : Writing path start old bufSize total done trace disk) :
    Ensures diskCalls (writeTurn bufSize total done) disk fun more step after =>
      step.Meets
        (fun next =>
          Writing path start old bufSize total next (trace ++ more) after)
        (WritesLeave path start old bufSize total (trace ++ more) after) := by
  unfold writeTurn
  split
  case isFalse complete =>
    obtain rfl : done = total :=
      UInt32.le_antisymm writing.inside (UInt32.not_lt.mp complete)
    rw [ensures_pure, List.append_nil]
    exact writing
  case isTrue before =>
  refine ensures_bind.mpr (ensures_request.mpr ?_)
  rintro (⟨ret, negative⟩ | ⟨ret, fits⟩) after answered
  · obtain ⟨file, size, opened, has, part, rfl⟩ := answered
    have left : InFile path start (done.toNat + part) _ _ :=
      writing.inFile.write opened has
    refine ensures_pure.mpr (left.keepsFile ?_)
    rw [List.append_nil, bytesIn_append, writing.written]
    exact Nat.le_trans (Nat.le_max_right ..) (Nat.le_max_left ..)
  · obtain ⟨file, size, opened, has, rfl⟩ := answered
    obtain ⟨sum, within⟩ := add_chunk before fits
    have longer : max (max old done.toNat) (done.toNat + ret) =
        max old (done.toNat + ret) := by
      omega
    rw [ensures_pure, List.append_nil]
    refine ⟨?_, ?_, ?_, ?_, fun positive => ?_⟩
    · rw [sum, ← longer]
      exact writing.inFile.write opened has
    · rw [sum, bytesIn_append, writing.written]
      rfl
    · rw [bytesIn_append, writing.readBack]
      rfl
    · rw [UInt32.le_iff_toNat_le, sum]
      exact within
    · rw [UInt32.lt_iff_toNat_lt, sum] at positive
      by_cases first : 0 < done
      · exact writing.buffer first
      · have noneYet := UInt32.lt_iff_toNat_lt.not.mp first
        exact buffer_of_amount (by omega) fits

theorem writeLoop_disk (opened : InFile path start 0 old disk) :
    Ensures diskCalls (loop (writeTurn bufSize total) fuel 0) disk
      fun trace ended after =>
        WritesLeave path start old bufSize total trace after ended := by
  refine ensures_loop (Writing path start old bufSize total)
    (fun _ _ _ writing => writeTurn_disk writing) fuel
    ⟨?_, rfl, rfl, UInt32.zero_le, fun positive => ?_⟩
  · simpa using opened
  · exact (UInt32.lt_irrefl 0 positive).elim

/-- The read loop has read `done` bytes. -/
structure Reading (path : CString) (start : Disk) (size : Nat)
    (total done : UInt32) (trace : Trace) (disk : Disk) : Prop where
  inFile : InFile path start done.toNat size disk
  written : bytesIn Event.written trace = 0
  readBack : bytesIn Event.readBack trace = done.toNat
  inside : done ≤ total

/-- How the read loop is left. -/
def ReadsLeave (path : CString) (start : Disk) (size : Nat) (total : UInt32)
    (trace : Trace) (disk : Disk) : Except Int UInt32 → Prop
  | .ok _ => Reading path start size total total trace disk
  | .error _ =>
      bytesIn Event.written trace = 0 ∧ KeepsFile path start size disk

/-- In a file that is long enough every read brings something. -/
theorem readTurn_disk (whole : total.toNat ≤ size)
    (buffer : 0 < total → 0 < bufSize)
    (reading : Reading path start size total done trace disk) :
    Ensures diskCalls (readTurn bufSize total done) disk fun more step after =>
      step.Meets
        (fun next => Reading path start size total next (trace ++ more) after)
        (ReadsLeave path start size total (trace ++ more) after) := by
  unfold readTurn
  split
  case isFalse complete =>
    obtain rfl : done = total :=
      UInt32.le_antisymm reading.inside (UInt32.not_lt.mp complete)
    rw [ensures_pure, List.append_nil]
    exact reading
  case isTrue before =>
  have inFile := reading.inFile
  refine ensures_bind.mpr (ensures_request.mpr ?_)
  rintro (⟨ret, negative⟩ | ⟨buf, fits⟩) after answered
  · have same : after.sizes = disk.sizes := answered
    refine ensures_pure.mpr ⟨?_, ⟨size, ?_, Nat.le_refl _⟩, ?_⟩
    · simpa [Event.written] using reading.written
    · rw [same]
      exact inFile.size
    · rw [same]
      exact inFile.others
  obtain ⟨file, found, opened, has, -, more, rfl⟩ := answered
  obtain rfl : file = ⟨path, done.toNat⟩ :=
    Option.some.inj (opened.symm.trans inFile.file)
  obtain rfl : found = size := Option.some.inj (has.symm.trans inFile.size)
  have short := UInt32.lt_iff_toNat_lt.mp before
  have room : 0 < bufSize := buffer (UInt32.lt_of_le_of_lt UInt32.zero_le before)
  have something : ¬ buf.length = 0 := by
    intro nothing
    have ended := more (List.eq_nil_of_length_eq_zero nothing)
      (UInt32.lt_iff_toNat_lt.mpr (chunk_pos before room))
    dsimp only at ended
    omega
  obtain ⟨sum, within⟩ := add_chunk before fits
  dsimp only
  rw [if_neg something, ensures_pure, List.append_nil]
  refine ⟨?_, ?_, ?_, ?_⟩
  · rw [sum]
    exact inFile.read opened
  · rw [bytesIn_append, reading.written]
    rfl
  · rw [sum, bytesIn_append, reading.readBack]
    rfl
  · rw [UInt32.le_iff_toNat_le, sum]
    exact within

theorem readLoop_disk (whole : total.toNat ≤ size)
    (buffer : 0 < total → 0 < bufSize) (opened : InFile path start 0 size disk) :
    Ensures diskCalls (loop (readTurn bufSize total) fuel 0) disk
      fun trace ended after =>
        ReadsLeave path start size total trace after ended :=
  ensures_loop (Reading path start size total)
    (fun _ _ _ reading => readTurn_disk whole buffer reading) fuel
    ⟨opened, rfl, rfl, UInt32.zero_le⟩

end Loops

/-- The end of a test that is finished. -/
def removing (path : CString) (res : Int) : Trace :=
  [⟨.fsUnlink path, res⟩, ⟨.kFree, ()⟩, reportsFinished]

/-- What the rest of a test leaves on the card, when `already` bytes have been
written. -/
structure TestLeft (path : CString) (total : UInt32) (already : Nat)
    (start : Disk) (trace : Trace) (ret : Int) (after : Disk) : Prop where
  others : ∀ other, other ≠ path → after.sizes other = start.sizes other
  finished : ret = 0 →
    already + bytesIn Event.written trace = total.toNat ∧
      bytesIn Event.readBack trace = total.toNat ∧
      ∃ front res, trace = front ++ removing path res ∧
        (after.sizes path = none ↔ res = 0)
  failed : ret ≠ 0 → 0 < already + bytesIn Event.written trace →
    ∃ size, after.sizes path = some size ∧
      already + bytesIn Event.written trace ≤ size

section Command

variable {path : CString} {start middle disk after : Disk}
variable {bufSize total : UInt32} {fuel already size : Nat} {ret : Int}
variable {trace opening rest : Trace}

theorem TestLeft.behind
    (others : ∀ other, other ≠ path → middle.sizes other = start.sizes other)
    (nothingRead : bytesIn Event.readBack opening = 0)
    (left : TestLeft path total (already + bytesIn Event.written opening) middle
      rest ret after) :
    TestLeft path total already start (opening ++ rest) ret after := by
  have sum : already + bytesIn Event.written (opening ++ rest) =
      already + bytesIn Event.written opening + bytesIn Event.written rest := by
    rw [bytesIn_append, Nat.add_assoc]
  refine ⟨fun other apart => ?_, fun zero => ?_, ?_⟩
  · exact (left.others other apart).trans (others other apart)
  · obtain ⟨written, readBack, front, res, rfl, gone⟩ := left.finished zero
    refine ⟨sum.trans written, ?_, opening ++ front, res,
      (List.append_assoc ..).symm, gone⟩
    rw [bytesIn_append, nothingRead, Nat.zero_add, readBack]
  · rw [sum]
    exact left.failed

/-- A test that fails here has written nothing more. -/
theorem TestLeft.of_failure
    (others : ∀ other, other ≠ path → after.sizes other = start.sizes other)
    (nothingWritten : bytesIn Event.written trace = 0) (failed : ret ≠ 0)
    (kept : 0 < already → ∃ size, after.sizes path = some size ∧ already ≤ size) :
    TestLeft path total already start trace ret after := by
  refine ⟨others, fun zero => (failed zero).elim, fun _ => ?_⟩
  rw [nothingWritten, Nat.add_zero]
  exact kept

/-- A test that fails with the card as it was. -/
theorem TestLeft.of_untouched (nothingWritten : bytesIn Event.written trace = 0)
    (failed : ret ≠ 0) : TestLeft path total 0 disk trace ret disk := by
  refine .of_failure (fun _ _ => rfl) nothingWritten failed fun positive => ?_
  exact (Nat.lt_irrefl 0 positive).elim

theorem Disk.openFile_inFile :
    InFile path disk 0 ((disk.sizes path).getD 0) (disk.openFile path) := by
  refine ⟨rfl, Function.update_self .., fun other apart => ?_⟩
  exact Function.update_of_ne apart ..

theorem others_of_unlink {res : Int}
    (answered : diskCalls.answers disk (.fsUnlink path) res after) (other : CString)
    (apart : other ≠ path) : after.sizes other = disk.sizes other := by
  simp only [diskCalls] at answered
  split at answered
  · obtain ⟨-, rfl⟩ := answered
    exact Function.update_of_ne apart ..
  · rw [answered]

/-- A file is gone unless the card refuses to remove it. -/
theorem gone_iff_of_unlink {res : Int}
    (answered : diskCalls.answers disk (.fsUnlink path) res after)
    (has : disk.sizes path = some size) :
    after.sizes path = none ↔ res = 0 := by
  simp only [diskCalls] at answered
  split at answered
  · rename_i accepted
    obtain ⟨-, rfl⟩ := answered
    exact iff_of_true (Function.update_self ..) accepted
  · rename_i refused
    rw [answered, has]
    exact iff_of_false (Option.some_ne_none size) refused

/-- The read test of a file that is long enough. -/
theorem readTest_disk (found : disk.sizes path = some size)
    (whole : total.toNat ≤ size) (buffer : 0 < total → 0 < bufSize) :
    Ensures diskCalls (readTest fuel path bufSize total) disk
      fun trace ret after =>
        TestLeft path total total.toNat disk trace ret after := by
  unfold readTest
  simp only [ensures_bind, ensures_request]
  intro (ret : Int) opened answered
  split
  case isTrue refused =>
    obtain rfl : opened = disk := by
      simpa [diskCalls, refused] using answered
    simp only [ensures_bind, ensures_request, ensures_pure]
    rintro _ _ rfl _ _ rfl
    exact .of_failure (fun _ _ => rfl) rfl (Int.ne_of_lt refused)
      fun _ => ⟨size, found, whole⟩
  case isFalse accepted =>
  obtain rfl : opened = disk.openFile path := by
    have answered : diskCalls.answers disk (.fsOpen path { read := true }) ret
      opened := answered
    simp only [diskCalls, if_neg accepted] at answered
    exact answered.2
  have atStart : InFile path disk 0 size (disk.openFile path) := by
    have length : (disk.sizes path).getD 0 = size := by
      rw [found, Option.getD_some]
    exact length ▸ Disk.openFile_inFile
  simp only [ensures_bind, ensures_request]
  rintro startTime _ rfl reading ended read readRuns
  have reads := readLoop_disk whole buffer atStart _ _ _ readRuns
  cases ended with
  | error code =>
      obtain ⟨negative, -⟩ := readLoop_tally _ _ _ readRuns
      obtain ⟨nothing, ⟨left, has, long⟩, others⟩ := reads
      simp only [ensures_bind, ensures_request, ensures_pure]
      rintro _ _ rfl _ _ rfl _ _ rfl
      refine .of_failure others ?_ (Int.ne_of_lt negative)
        fun _ => ⟨left, has, Nat.le_trans whole long⟩
      simp [Event.written, nothing]
  | ok bytesRead =>
      simp only [ensures_bind, ensures_request, ensures_pure]
      rintro endTime _ rfl ⟨⟩ _ rfl ⟨⟩ _ rfl (res : Int) _ answered ⟨⟩ _ rfl
        ⟨⟩ after rfl
      have gone := gone_iff_of_unlink answered reads.inFile.size
      refine ⟨fun other apart => ?_, fun _ => ⟨?_, ?_, ?_⟩,
        fun failed => (failed rfl).elim⟩
      · exact (others_of_unlink answered other apart).trans
          (reads.inFile.others other apart)
      · simp [Event.written, reads.written]
      · simp [Event.readBack, reads.readBack]
      · refine ⟨[⟨.fsOpen path { read := true }, ret⟩, ⟨.kUptimeGet, startTime⟩] ++
          reading ++ [⟨.kUptimeGet, endTime⟩, ⟨.fsClose, ()⟩,
            ⟨.reportSpeed bytesRead (duration startTime endTime), ()⟩], res, ?_,
          gone⟩
        simp [removing, reportsFinished]

/-- The whole test of one file. -/
theorem writeTest_disk :
    Ensures diskCalls (writeTest fuel path bufSize total) disk
      fun trace ret after => TestLeft path total 0 disk trace ret after := by
  unfold writeTest
  simp only [ensures_bind, ensures_request]
  intro (opening : Int) opened answered
  split
  case isTrue refused =>
    obtain rfl : opened = disk := by
      simpa [diskCalls, refused] using answered
    simp only [ensures_bind, ensures_request, ensures_pure]
    rintro _ _ rfl _ _ rfl
    exact .of_untouched rfl (Int.ne_of_lt refused)
  case isFalse accepted =>
  obtain rfl : opened = disk.openFile path := by
    have answered : diskCalls.answers disk
      (.fsOpen path { create := true, write := true }) opening opened := answered
    simp only [diskCalls, if_neg accepted] at answered
    exact answered.2
  simp only [ensures_bind, ensures_request]
  rintro startTime _ rfl writing ended written writeRuns
  have writes := writeLoop_disk Disk.openFile_inFile _ _ _ writeRuns
  cases ended with
  | error code =>
      obtain ⟨negative, -⟩ := writeLoop_tally _ _ _ writeRuns
      obtain ⟨⟨left, has, long⟩, others⟩ := writes
      simp only [ensures_bind, ensures_request, ensures_pure]
      rintro _ _ rfl _ _ rfl _ _ rfl
      refine ⟨others, fun zero => ?_, fun _ _ => ⟨left, has, ?_⟩⟩
      · exact (Int.ne_of_lt negative zero).elim
      · simpa [Event.written] using long
  | ok bytesWritten =>
      simp only [ensures_bind, ensures_request]
      rintro synced _ rfl endTime kept rfl ⟨⟩ _ rfl ⟨⟩ _ rfl
      intro rest ret after restRuns
      have found : Disk.sizes ⟨kept.sizes, none⟩ path = some _ :=
        writes.inFile.size
      have others : ∀ other, other ≠ path →
          Disk.sizes ⟨kept.sizes, none⟩ other = disk.sizes other :=
        writes.inFile.others
      have left : TestLeft path total total.toNat ⟨kept.sizes, none⟩ rest ret
          after :=
        readTest_disk found (Nat.le_max_right ..) writes.buffer _ _ _ restRuns
      have whole : TestLeft path total 0 disk
          ([⟨.fsOpen path { create := true, write := true }, opening⟩,
              ⟨.kUptimeGet, startTime⟩] ++ writing ++
            [⟨.fsSync, synced⟩, ⟨.kUptimeGet, endTime⟩, ⟨.fsClose, ()⟩,
              ⟨.reportSpeed bytesWritten (duration startTime endTime), ()⟩] ++
            rest) ret after := by
        refine .behind others ?_ ?_
        · simp [Event.readBack, writes.readBack]
        · simpa [Event.written, writes.written] using left
      simpa using whole

theorem cmdSdSpeed_disk {argv : List CString} :
    Ensures diskCalls (cmdSdSpeed fuel argv) disk fun trace ret after =>
      TestLeft (argv[3]?.getD defaultTestFile) (totalBytes (sizeMb argv)) 0 disk
        trace ret after := by
  unfold cmdSdSpeed
  dsimp only
  split
  case isTrue rejected =>
    simp only [ensures_bind, ensures_request, ensures_pure]
    rintro _ _ rfl
    exact .of_untouched rfl (by decide)
  case isFalse accepted =>
  simp only [ensures_bind, ensures_request]
  rintro (buf : Bool) disk rfl
  split
  case isTrue noBuffer =>
    simp only [ensures_bind, ensures_request, ensures_pure]
    rintro _ _ rfl
    exact .of_untouched rfl (by decide)
  case isFalse hasBuffer =>
  simp only [ensures_bind, ensures_request]
  rintro unlinked middle answered rest ret after restRuns
  have left := writeTest_disk _ _ _ restRuns
  have whole : TestLeft (argv[3]?.getD defaultTestFile)
      (totalBytes (sizeMb argv)) 0 disk
      ([⟨.kMalloc (bufSize (bufKb argv)), buf⟩,
        ⟨.fsUnlink (argv[3]?.getD defaultTestFile), unlinked⟩] ++ rest) ret
      after :=
    .behind (others_of_unlink answered) rfl left
  simpa using whole

end Command

/-- For every command line and every run on a card that keeps what it is given:
only the test file changes.  A test that returns 0 has written and read back the
same number of bytes, and removes its file last: the file is gone exactly if the
card accepts that.  Any other test that has written something leaves its file on
the card, with at least the bytes written. -/
theorem speed_test_leaves {fuel : Nat} {argv : List CString} {disk after : Disk}
    {trace : Trace} {ret : Int}
    (runs : Runs diskCalls (cmdSdSpeed fuel argv) disk trace ret after) :
    (∀ other, other ≠ argv[3]?.getD defaultTestFile →
      after.sizes other = disk.sizes other) ∧
    (ret = 0 →
      bytesIn Event.written trace = (totalBytes (sizeMb argv)).toNat ∧
      bytesIn Event.readBack trace = (totalBytes (sizeMb argv)).toNat ∧
      ∃ front res,
        trace = front ++ removing (argv[3]?.getD defaultTestFile) res ∧
          (after.sizes (argv[3]?.getD defaultTestFile) = none ↔ res = 0)) ∧
    (ret ≠ 0 → 0 < bytesIn Event.written trace →
      ∃ size, after.sizes (argv[3]?.getD defaultTestFile) = some size ∧
        bytesIn Event.written trace ≤ size) := by
  have left := cmdSdSpeed_disk _ _ _ runs
  refine ⟨left.others, fun zero => ?_, fun failed => ?_⟩
  · simpa using left.finished zero
  · simpa using left.failed failed

/-- A test of the default sizes whose second write fails. -/
def tornTrace : Trace :=
  [⟨.kMalloc (bufSize 16), true⟩, ⟨.fsUnlink defaultTestFile, (-2 : Int)⟩,
    ⟨.fsOpen defaultTestFile { create := true, write := true }, (0 : Int)⟩,
    ⟨.kUptimeGet, (0 : Int)⟩,
    ⟨.fsWrite (chunk (bufSize 16) (totalBytes 4) 0), .stored 5 (by decide)⟩,
    ⟨.fsWrite (chunk (bufSize 16) (totalBytes 4) 5), .error (-5) (by decide)⟩,
    ⟨.shellError (cString s!"Write error occurred: {-5}"), ()⟩,
    ⟨.fsClose, ()⟩, ⟨.kFree, ()⟩]

def emptyDisk : Disk where
  sizes _ := none
  file := none

theorem torn_test_leaves_file : ∃ after,
    Runs diskCalls (cmdSdSpeed 2 []) emptyDisk tornTrace (-5) after ∧
      ∃ size, after.sizes defaultTestFile = some size ∧ 5 ≤ size := by
  let opened := emptyDisk.openFile defaultTestFile
  let written := opened.write ⟨defaultTestFile, 0⟩ 0 5
  let torn := written.write ⟨defaultTestFile, 5⟩ 5 3
  have runs : Runs diskCalls (cmdSdSpeed 2 []) emptyDisk tornTrace (-5)
      { torn with file := none } := by
    have size : sizeMb [] = 4 := rfl
    have buffer : bufKb [] = 16 := rfl
    unfold cmdSdSpeed
    rw [size, buffer]
    iterate 2
      apply Runs.call
      · exact rfl
    apply Runs.call
    · exact ⟨by simp, rfl⟩
    apply Runs.call
    · exact rfl
    apply Runs.call
    · exact ⟨_, _, rfl, rfl, rfl⟩
    apply Runs.call
    · exact ⟨_, _, rfl, rfl, 3, rfl⟩
    iterate 3
      apply Runs.call
      · exact rfl
    exact .done _ _
  refine ⟨_, runs, ?_⟩
  exact (speed_test_leaves runs).2.2 (by decide) (by decide)

end SdSpeed

end SzpiSta
