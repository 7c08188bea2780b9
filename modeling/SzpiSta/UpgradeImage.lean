import SzpiSta.UpgradeRuns

/-!
# What a successful upgrade leaves in the target partition

The copy loop ends when the reported size is reached, but also, with the same
return code, when a read brings nothing.  So a successful return means a
complete image exactly for files that are as long as `fs_stat` reported.
-/

namespace SzpiSta

namespace Upgrade

open ExternalCalls ExternalCalls.Program

/-- A successful write of the trace covers byte `index` of partition `id`. -/
def WrittenAt (trace : Trace) (id : UInt8) (index : Nat) : Prop :=
  ∃ offset data rc, (⟨.flashAreaWrite id offset data, rc⟩ : Event Call.Answer)
      ∈ trace ∧ (0 : Int) ≤ rc ∧
    offset.toNat ≤ index ∧ index < offset.toNat + data.length

/-- The first bytes of the partition, as many as the file was reported to have,
were written in this trace and are the file's bytes. -/
structure ImageComplete (id : UInt8) (entry : FileEntry) (trace : Trace)
    (after : World) : Prop where
  allWritten : ∀ index < entry.stat.size.toNat, WrittenAt trace id index
  sameBytes : ∀ index < entry.stat.size.toNat,
    entry.content[index]? = some (after.flash id index)

theorem writtenAt_append {first second : Trace} {id : UInt8} {index : Nat} :
    WrittenAt (first ++ second) id index ↔
      WrittenAt first id index ∨ WrittenAt second id index := by
  constructor
  · rintro ⟨offset, data, rc, member, covers⟩
    rcases List.mem_append.mp member with member | member
    · exact .inl ⟨offset, data, rc, member, covers⟩
    · exact .inr ⟨offset, data, rc, member, covers⟩
  · rintro (⟨offset, data, rc, member, covers⟩ |
      ⟨offset, data, rc, member, covers⟩)
    · exact ⟨offset, data, rc, List.mem_append_left _ member, covers⟩
    · exact ⟨offset, data, rc, List.mem_append_right _ member, covers⟩

/-- No call of the trace is a write. -/
def NoWrite (trace : Trace) : Prop :=
  ∀ event ∈ trace, ∀ id offset data, event.call ≠ .flashAreaWrite id offset data

theorem not_writtenAt_of_noWrite {trace : Trace} {id : UInt8} {index : Nat}
    (noWrite : NoWrite trace) : ¬ WrittenAt trace id index := by
  rintro ⟨offset, data, rc, member, -⟩
  exact noWrite _ member id offset data rfl

theorem writtenAt_append_of_noWrite {trace more : Trace} {id : UInt8}
    {index : Nat} (noWrite : NoWrite more) :
    WrittenAt (trace ++ more) id index ↔ WrittenAt trace id index := by
  rw [writtenAt_append, or_iff_left (not_writtenAt_of_noWrite noWrite)]

theorem writtenAt_of_noWrite_append {trace more : Trace} {id : UInt8}
    {index : Nat} (noWrite : NoWrite trace) :
    WrittenAt (trace ++ more) id index ↔ WrittenAt more id index := by
  rw [writtenAt_append, or_iff_right (not_writtenAt_of_noWrite noWrite)]

theorem noWrite_fsRead {count : UInt32} {answer : (Call.fsRead count).Answer} :
    NoWrite [⟨.fsRead count, answer⟩] := by
  simp [NoWrite]

theorem writtenAt_append_write {trace : Trace} {id : UInt8} {offset : UInt32}
    {data : List UInt8} {rc : Int} {index : Nat} :
    WrittenAt (trace ++ [⟨.flashAreaWrite id offset data, rc⟩]) id index ↔
      WrittenAt trace id index ∨
        0 ≤ rc ∧ offset.toNat ≤ index ∧ index < offset.toNat + data.length := by
  rw [writtenAt_append]
  refine or_congr_right ⟨?_, ?_⟩
  · rintro ⟨_, _, _, member, covers⟩
    cases List.mem_singleton.mp member
    exact covers
  · exact fun covers => ⟨_, _, _, List.mem_singleton_self _, covers⟩

/-- The loop invariant: the file position is the write offset, and everything
below the offset is written and equal to the file. -/
structure Copied (id : UInt8) (content : List UInt8) (fileSize : UInt32)
    (writeOffset : UInt32) (trace : Trace) (world : World) : Prop where
  position : world.file = some (content, writeOffset.toNat)
  withinSize : writeOffset.toNat ≤ fileSize.toNat
  withinContent : writeOffset.toNat ≤ content.length
  written : ∀ index, WrittenAt trace id index ↔ index < writeOffset.toNat
  sameBytes : ∀ index < writeOffset.toNat,
    content[index]? = some (world.flash id index)

/-- How the loop ends: it wrote nothing beyond the file's content, and either
an error stopped it or all of the reported size is copied or the file ended. -/
structure CopyEnded (id : UInt8) (content : List UInt8) (fileSize : UInt32)
    (trace : Trace) (failure : Option Int) (after : World) : Prop where
  confined : ∀ index, WrittenAt trace id index → index < content.length
  negative : ∀ rc, failure = some rc → rc < 0
  copied : failure = none → ∃ writeOffset,
    Copied id content fileSize writeOffset trace after ∧
      (writeOffset.toNat = fileSize.toNat ∨
        content.length ≤ writeOffset.toNat)

section CopyLoop

variable {parts : Partitions} {id : UInt8} {content : List UInt8}
variable {fileSize writeOffset : UInt32} {trace : Trace} {world : World}

/-- A read followed by the write of what it brought. -/
theorem Copied.step {bytes : List UInt8} {after : World}
    (copied : Copied id content fileSize writeOffset trace world)
    (before : writeOffset < fileSize) {count : Nat}
    (fits : bytes.length ≤ (min chunkSize (fileSize - writeOffset)).toNat)
    (reads : ReadsOn content writeOffset.toNat count bytes)
    {answer : (Call.fsRead (min chunkSize (fileSize - writeOffset))).Answer}
    {rc : Int} (wrote : 0 ≤ rc)
    (only : OnlyRange id writeOffset.toNat bytes.length
      { world with
        file := some (content, writeOffset.toNat + bytes.length) } after)
    (stored : ∀ (index : Nat) (inside : index < bytes.length),
      after.flash id (writeOffset.toNat + index) = bytes[index]) :
    Copied id content fileSize (writeOffset + UInt32.ofNat bytes.length)
      (trace ++ [⟨.fsRead (min chunkSize (fileSize - writeOffset)), answer⟩] ++
        [⟨.flashAreaWrite id writeOffset bytes, rc⟩]) after := by
  have insideContent := reads.length_le copied.withinContent
  obtain ⟨nextOffset, insideSize⟩ := writeOffset_add before fits
  refine ⟨?_, ?_, ?_, fun index => ?_, fun index below => ?_⟩
  · rw [only.file, nextOffset]
  · rw [nextOffset]
    exact insideSize
  · rw [nextOffset]
    exact insideContent
  · rw [writtenAt_append_write, writtenAt_append_of_noWrite noWrite_fsRead,
      copied.written index, nextOffset]
    omega
  · rw [nextOffset] at below
    by_cases old : index < writeOffset.toNat
    · rw [copied.sameBytes index old, only.outside id index (by omega)]
    · obtain ⟨more, rfl⟩ := Nat.exists_eq_add_of_le (not_lt.mp old)
      have inside : more < bytes.length := by omega
      rw [reads.getElem? inside, stored more inside]

/-- One turn of the loop. -/
theorem copyChunk_ensures
    (copied : Copied id content fileSize writeOffset trace world) :
    Ensures (environment parts) (copyChunk id fileSize writeOffset) world
      fun more step after =>
        step.Meets
          (fun next => Copied id content fileSize next (trace ++ more) after)
          (fun failure =>
            CopyEnded id content fileSize (trace ++ more) failure after) := by
  have confined : ∀ index, WrittenAt trace id index →
      index < content.length := fun index written =>
    lt_of_lt_of_le ((copied.written index).mp written) copied.withinContent
  unfold copyChunk
  split
  case isFalse complete =>
    rw [ensures_pure]
    refine ⟨by simpa using confined, by simp,
      fun _ => ⟨writeOffset, by simpa, .inl ?_⟩⟩
    have := copied.withinSize
    rw [UInt32.lt_iff_toNat_lt] at complete
    omega
  case isTrue before =>
  simp only [ensures_bind, ensures_request]
  rintro (⟨bytesRead, negative⟩ | ⟨bytes, fits⟩) middle answered
  · rw [ensures_pure]
    refine ⟨fun index written => confined index ?_, by simpa, by simp⟩
    rwa [List.append_nil, writtenAt_append_of_noWrite noWrite_fsRead] at written
  obtain ⟨content', position, opened, reads, rfl⟩ := answered
  obtain ⟨rfl, rfl⟩ : content = content' ∧ writeOffset.toNat = position := by
    simpa [copied.position] using opened
  dsimp only
  split
  case isTrue nothing =>
    rw [ensures_pure, List.append_nil]
    have atEnd : content.length ≤ writeOffset.toNat := by
      apply reads.2 (List.length_eq_zero_iff.mp nothing)
      rw [bytesToRead_toNat before]
      rw [UInt32.lt_iff_toNat_lt] at before
      omega
    refine ⟨fun index written => confined index ?_, by simp,
      fun _ => ⟨writeOffset, ⟨?_, copied.withinSize, copied.withinContent,
        fun index => ?_, copied.sameBytes⟩, .inr atEnd⟩⟩
    · rwa [writtenAt_append_of_noWrite noWrite_fsRead] at written
    · simp [nothing]
    · rw [writtenAt_append_of_noWrite noWrite_fsRead, copied.written index]
  case isFalse something =>
  simp only [ensures_bind, ensures_request]
  rintro (rc : Int) after ⟨only, stored⟩
  split
  case isTrue failed =>
    have negative : rc < 0 := failed
    rw [ensures_pure]
    refine ⟨fun index written => confined index ?_, by simpa, by simp⟩
    rw [List.append_nil, ← List.append_assoc, writtenAt_append_write,
      writtenAt_append_of_noWrite noWrite_fsRead] at written
    exact written.resolve_right fun covers => absurd covers.1 (by omega)
  case isFalse notFailed =>
    have wrote : 0 ≤ rc := Int.not_lt.mp notFailed
    rw [ensures_pure, List.append_nil, ← List.append_assoc]
    exact copied.step before fits reads wrote only (stored wrote)

theorem copyFile_ensures (opened : world.file = some (content, 0)) :
    Ensures (environment parts) (copyFile id fileSize) world
      fun trace failure after =>
        CopyEnded id content fileSize trace failure after := by
  refine ensures_loop (Copied id content fileSize)
    (fun _ _ _ copied => copyChunk_ensures copied) _ ?_
  refine ⟨opened, by simp, by simp, fun index => ?_, by simp⟩
  simp [WrittenAt]

end CopyLoop

section WholeCall

variable {parts : Partitions} {id : UInt8} {world : World}

theorem cleanup_ensures {readBuf : Bool} {rc : Int} :
    Ensures (environment parts) (cleanup id readBuf rc) world
      fun trace result after =>
        result = rc ∧ after.flash = world.flash ∧ NoWrite trace := by
  unfold cleanup
  cases readBuf
  · simp only [Bool.false_eq_true, if_false, ensures_bind, ensures_request,
      ensures_pure]
    rintro _ _ rfl _ _ rfl
    simp [NoWrite]
  · simp only [if_true, ensures_bind, ensures_request, ensures_pure]
    rintro _ _ rfl _ _ rfl _ _ rfl
    simp [NoWrite]

/-- What the call as a whole says about the partition. -/
theorem writeOpenedFile_ensures {content : List UInt8} {fileSize : UInt32}
    (opened : world.file = some (content, 0)) :
    Ensures (environment parts) (writeOpenedFile id fileSize) world
      fun trace rc after =>
        (∀ index, WrittenAt trace id index → index < content.length) ∧
          (rc = 0 → ∃ writeOffset,
            Copied id content fileSize writeOffset trace
                { after with file := some (content, writeOffset.toNat) } ∧
              (writeOffset.toNat = fileSize.toNat ∨
                content.length ≤ writeOffset.toNat)) := by
  have silent {closing : Trace} {eraseRc : Int} (noWrite : NoWrite closing)
      (index : Nat) : ¬ WrittenAt
        (⟨.flashAreaErase id 0 (eraseSize fileSize), eraseRc⟩ :: closing) id
        index :=
    not_writtenAt_of_noWrite (by simpa [NoWrite] using noWrite)
  intro trace rc after runs
  cases openedRun_of_runs runs with
  | eraseFails failed erase closes =>
      obtain ⟨rfl, -, noWrite⟩ := cleanup_ensures _ _ _ closes
      exact ⟨fun index written => (silent noWrite index written).elim,
        fun zero => by omega⟩
  | noBuffer erasedOk erase refused closes =>
      obtain ⟨rfl, -, noWrite⟩ := cleanup_ensures _ _ _ closes
      refine ⟨fun index written => (silent ?_ index written).elim,
        fun zero => absurd zero (by decide)⟩
      simpa [NoWrite] using noWrite
  | copies erasedOk erase given copyRuns closes =>
      rename_i eraseRc _ _ _ copying closing failure
      obtain ⟨rfl, sameFlash, noWrite⟩ := cleanup_ensures _ _ _ closes
      obtain rfl := given
      have ended := copyFile_ensures (erase.1.file.trans opened) _ _ _ copyRuns
      have written (index : Nat) :
          WrittenAt ([⟨.flashAreaErase id 0 (eraseSize fileSize), eraseRc⟩] ++
            ([⟨.kMalloc chunkSize, true⟩] ++ (copying ++ closing))) id index ↔
            WrittenAt copying id index := by
        rw [writtenAt_of_noWrite_append (by simp [NoWrite]),
          writtenAt_of_noWrite_append (by simp [NoWrite]),
          writtenAt_append_of_noWrite noWrite]
      refine ⟨fun index isWritten =>
        ended.confined index ((written index).mp isWritten), fun zero => ?_⟩
      cases failure with
      | some rc =>
          have negative := ended.negative _ rfl
          have zero : rc = 0 := zero
          omega
      | none =>
          obtain ⟨writeOffset, copied, complete⟩ := ended.copied rfl
          refine ⟨writeOffset, ⟨rfl, copied.withinSize, copied.withinContent,
            fun index => ?_, ?_⟩, complete⟩
          · exact (written index).trans (copied.written index)
          · rw [sameFlash]
            exact copied.sameBytes

/-- What holds of the image when the copy stopped at `writeOffset`, the size
reported of the file. -/
theorem Copied.imageComplete {entry : FileEntry} {writeOffset : UInt32}
    {trace : Trace} {after : World}
    (copied : Copied id entry.content entry.stat.size writeOffset trace after)
    (complete : writeOffset.toNat = entry.stat.size.toNat) :
    ImageComplete id entry trace after where
  allWritten := fun index below =>
    (copied.written index).mpr (complete ▸ below)
  sameBytes := fun index below => copied.sameBytes index (complete ▸ below)

/-- The file at `path` has at least as many bytes as `fs_stat` reports. -/
def ContentCoversSize (path : CString) (before : World) : Prop :=
  ∀ entry, before.files path = some entry → entry.stat.type = .file →
    entry.stat.size.toNat ≤ entry.content.length

/-- A return of 0 means a complete image in partition `id`. -/
def ZeroMeansComplete (parts : Partitions) (path : CString) (id : UInt8)
    (before : World) : Prop :=
  Ensures (environment parts) (writeOtaFileToPartition path id) before
    fun trace rc after => rc = 0 → ∃ entry,
      before.files path = some entry ∧ ImageComplete id entry trace after

/-- The bootloader is asked for the upgrade, and the board rebooted, only with
a complete image in the partition the upgrade was aimed at. -/
def TriggerMeansComplete (parts : Partitions) (path : CString)
    (before : World) : Prop :=
  Ensures (environment parts) (performOtaUpgradeFromFile parts path) before
    fun trace _ after => (∃ event ∈ trace, MadeByTrigger event.call) →
      ∃ entry target fetch, before.files path = some entry ∧
        Runs (environment parts) (getUpgradeTargetPartitionId parts) before
          fetch target before ∧
        ImageComplete target entry trace after

theorem noWrite_of_untouched {trace : Trace}
    (untouched : ∀ event ∈ trace, event.call.flashTarget = none) :
    NoWrite trace := by
  intro event member id offset data isWrite
  have none := untouched event member
  rw [isWrite] at none
  cases none

theorem Quiet.noWrite {trace : Trace} (quiet : Quiet trace) : NoWrite trace :=
  noWrite_of_untouched fun event member => (quiet event member).2

variable {path : CString}

/-- Nothing is ever written beyond the end of the file. -/
theorem writeOta_confined {entry : FileEntry}
    (found : world.files path = some entry) :
    Ensures (environment parts) (writeOtaFileToPartition path id) world
      fun trace _ _ =>
        ∀ index, WrittenAt trace id index → index < entry.content.length := by
  refine writeOta_cases.mono ?_
  rintro trace rc after (⟨-, -, untouched⟩ |
    ⟨entry', opening, rest, found', -, -, quiet, rfl, runs⟩) index written
  · exact (not_writtenAt_of_noWrite (noWrite_of_untouched untouched)
      written).elim
  · obtain rfl : entry' = entry := Option.some.inj (found'.symm.trans found)
    rw [writtenAt_of_noWrite_append quiet.noWrite] at written
    exact (writeOpenedFile_ensures rfl _ _ _ runs).1 index written

theorem zeroMeansComplete_of_covers (covers : ContentCoversSize path world) :
    ZeroMeansComplete parts path id world := by
  refine writeOta_cases.mono ?_
  rintro trace rc after (⟨negative, -⟩ |
    ⟨entry, opening, rest, found, regular, -, quiet, rfl, runs⟩) zero
  · omega
  obtain ⟨writeOffset, copied, complete⟩ :=
    (writeOpenedFile_ensures rfl _ _ _ runs).2 zero
  have atSize : writeOffset.toNat = entry.stat.size.toNat := by
    have := covers entry found regular
    have := copied.withinSize
    omega
  have complete := copied.imageComplete atSize
  refine ⟨entry, found, fun index below => ?_, complete.sameBytes⟩
  rw [writtenAt_of_noWrite_append quiet.noWrite]
  exact complete.allWritten index below

theorem triggerUpgrade_ensures :
    Ensures (environment parts) triggerUpgrade world
      fun trace _ after => after = world ∧ NoWrite trace := by
  unfold triggerUpgrade
  simp only [ensures_bind, ensures_request]
  rintro rc _ rfl
  split
  · rw [ensures_pure]
    simp [NoWrite]
  · simp only [ensures_bind, ensures_request]
    rintro _ _ rfl _ _ rfl
    simp [NoWrite]

theorem getUpgradeTargetPartitionId_ensures :
    Ensures (environment parts) (getUpgradeTargetPartitionId parts) world
      fun trace _ after => after = world ∧ NoWrite trace ∧
        ∀ event ∈ trace, ¬ MadeByTrigger event.call := by
  unfold getUpgradeTargetPartitionId
  simp only [ensures_bind, ensures_request]
  rintro activeAreaId _ ⟨-, rfl⟩
  split <;> simp [NoWrite, MadeByTrigger]

theorem triggerMeansComplete_of_zeroMeansComplete
    (zeroMeans : ∀ id, ZeroMeansComplete parts path id world) :
    TriggerMeansComplete parts path world := by
  unfold TriggerMeansComplete performOtaUpgradeFromFile
  simp only [ensures_bind]
  intro fetch target middle fetchRuns trace rc after runs tail _ last tailRuns
  rintro ⟨event, member, made⟩
  obtain ⟨rfl, fetchNoWrite, notFetch⟩ :=
    getUpgradeTargetPartitionId_ensures _ _ _ fetchRuns
  rw [List.mem_append, List.mem_append] at member
  rcases member with member | member | member
  · exact (notFetch event member made).elim
  · exact (runs.issued writeOta_issues event member made).elim
  split at tailRuns
  case isFalse =>
    obtain ⟨rfl, -, -⟩ := runs_done_iff.mp tailRuns
    cases member
  case isTrue zero =>
  obtain ⟨rfl, tailNoWrite⟩ := triggerUpgrade_ensures _ _ _ tailRuns
  obtain ⟨entry, found, complete⟩ := zeroMeans target _ _ _ runs zero
  refine ⟨entry, target, fetch, found, fetchRuns, fun index below => ?_,
    complete.sameBytes⟩
  rw [writtenAt_of_noWrite_append fetchNoWrite,
    writtenAt_append_of_noWrite tailNoWrite]
  exact complete.allWritten index below

end WholeCall

section ShortFile

variable (parts : Partitions) (id : UInt8) {content : List UInt8}
variable {fileSize writeOffset : UInt32} {world : World}

/-- At the end of the file the loop falls out as if it were done. -/
theorem copyChunk_runs_at_end (before : writeOffset < fileSize)
    (opened : world.file = some (content, writeOffset.toNat))
    (atEnd : content.length ≤ writeOffset.toNat) :
    ∃ trace after, Runs (environment parts) (copyChunk id fileSize writeOffset)
      world trace (.leave none) after := by
  have nothing : ReadsOn content writeOffset.toNat
      (min chunkSize (fileSize - writeOffset)).toNat [] :=
    ⟨by simp, fun _ _ => atEnd⟩
  have answered : (environment parts).answers world
      (.fsRead (min chunkSize (fileSize - writeOffset)))
      (ReadAnswer.data [] (Nat.zero_le _))
      { world with file := some (content, writeOffset.toNat + 0) } :=
    ⟨content, _, opened, nothing, rfl⟩
  unfold copyChunk
  rw [if_pos before]
  exact ⟨_, _, .call _ answered (.done _ _)⟩

/-- The world with one byte of partition `id` replaced. -/
def World.storing (world : World) (id : UInt8) (offset : Nat) (byte : UInt8) :
    World :=
  { world with
    flash := Function.update world.flash id
      (Function.update (world.flash id) offset byte) }

theorem write_storing {byte : UInt8} :
    (environment parts).answers world (.flashAreaWrite id writeOffset [byte])
      (0 : Int) (world.storing id writeOffset.toNat byte) := by
  refine ⟨⟨rfl, rfl, rfl, fun other index outside => ?_⟩,
    fun _ index single => ?_⟩
  · by_cases same : other = id
    · subst same
      have elsewhere : index ≠ writeOffset.toNat := by
        rintro rfl
        exact outside (by simp)
      simp [World.storing, elsewhere]
    · simp [World.storing, same]
  · have first : index = 0 := by simpa using single
    simp [World.storing, first]

/-- Inside the file the loop may go on by one byte. -/
theorem copyChunk_runs_inside (before : writeOffset < fileSize)
    (opened : world.file = some (content, writeOffset.toNat))
    (inside : writeOffset.toNat < content.length) :
    ∃ trace after, Runs (environment parts) (copyChunk id fileSize writeOffset)
      world trace (.again (writeOffset + 1)) after ∧
        after.file = some (content, writeOffset.toNat + 1) := by
  have fits : [content[writeOffset.toNat]].length ≤
      (min chunkSize (fileSize - writeOffset)).toNat := by
    rw [bytesToRead_toNat before]
    rw [UInt32.lt_iff_toNat_lt] at before
    simp only [List.length_singleton]
    omega
  have oneByte : [content[writeOffset.toNat]] =
      (content.drop writeOffset.toNat).take 1 := by
    rw [List.drop_eq_getElem_cons inside]
    rfl
  have answered : (environment parts).answers world
      (.fsRead (min chunkSize (fileSize - writeOffset)))
      (ReadAnswer.data _ fits)
      { world with file := some (content, writeOffset.toNat + 1) } :=
    ⟨content, _, opened, ⟨oneByte, by simp⟩, rfl⟩
  unfold copyChunk
  rw [if_pos before]
  exact ⟨_, _, .call _ answered (.call (0 : Int) (write_storing parts id) (.done _ _)), rfl⟩

theorem copyLoop_runs_to_end (short : content.length < fileSize.toNat)
    (withinContent : writeOffset.toNat ≤ content.length)
    (opened : world.file = some (content, writeOffset.toNat)) {fuel : Nat}
    (enough : content.length - writeOffset.toNat < fuel) :
    ∃ trace after, Runs (environment parts)
      (loop (copyChunk id fileSize) fuel writeOffset) world trace none
      after := by
  have before : writeOffset < fileSize := by
    rw [UInt32.lt_iff_toNat_lt]
    omega
  induction fuel generalizing writeOffset world with
  | zero => omega
  | succ fuel ih =>
      by_cases inside : writeOffset.toNat < content.length
      · obtain ⟨turnTrace, middle, turn, opened⟩ :=
          copyChunk_runs_inside parts id before opened inside
        have next : (writeOffset + 1).toNat = writeOffset.toNat + 1 := by
          have := fileSize.toNat_lt
          rw [UInt32.toNat_add]
          simp only [UInt32.toNat_one]
          omega
        rw [← next] at opened
        have nextBefore : writeOffset + 1 < fileSize := by
          rw [UInt32.lt_iff_toNat_lt]
          omega
        obtain ⟨restTrace, after, rest⟩ :=
          ih (by omega) opened (by omega) nextBefore
        exact ⟨_, after, .loop_again turn rest⟩
      · obtain ⟨trace, after, turn⟩ :=
          copyChunk_runs_at_end parts id before opened (not_lt.mp inside)
        exact ⟨_, after, .loop_leave turn⟩

theorem cleanup_runs (rc : Int) :
    ∃ trace after,
      Runs (environment parts) (cleanup id true rc) world trace rc after :=
  ⟨_, _, .call () rfl (.call () rfl (.call () rfl (.done _ _)))⟩

/-- The world with the first `size` bytes of a partition erased. -/
def World.erasing (world : World) (id : UInt8) (size : Nat) : World :=
  { world with
    flash := Function.update world.flash id fun index =>
      if index < size then 0xff else world.flash id index }

theorem erase_erasing (size : UInt32) :
    (environment parts).answers world (.flashAreaErase id 0 size) (0 : Int)
      (world.erasing id size.toNat) := by
  refine ⟨⟨rfl, rfl, rfl, fun other index outside => ?_⟩,
    fun _ index inside => ?_⟩
  · by_cases same : other = id
    · subst same
      have beyond : ¬ index < size.toNat := fun below =>
        outside ⟨rfl, by simp, by simpa using below⟩
      simp [World.erasing, beyond]
    · simp [World.erasing, same]
  · simp [World.erasing, inside]

/-- A file shorter than it was reported can be taken for a complete image. -/
theorem writeOta_runs_to_zero {path : CString} {entry : FileEntry}
    (found : world.files path = some entry) (regular : entry.stat.type = .file)
    (short : entry.content.length < entry.stat.size.toNat) :
    ∃ trace after, Runs (environment parts) (writeOtaFileToPartition path id)
      world trace 0 after := by
  have notEmpty : entry.stat.size ≠ 0 := by
    intro empty
    simp [empty] at short
  have usable : ¬ (entry.stat.type ≠ .file ∨ entry.stat.size = 0) := by
    simp [regular, notEmpty]
  let opened : World := { world with file := some (entry.content, 0) }
  have atStart : (opened.erasing id (eraseSize entry.stat.size).toNat).file =
      some (entry.content, (0 : UInt32).toNat) := rfl
  have enough : entry.content.length - (0 : UInt32).toNat <
      entry.stat.size.toNat + 1 := by omega
  obtain ⟨copyTrace, copied, copyRuns⟩ :=
    copyLoop_runs_to_end parts id short (Nat.zero_le _) atStart enough
  obtain ⟨closeTrace, after, closeRuns⟩ :=
    cleanup_runs parts id 0
  have openedRuns : ∃ trace,
      Runs (environment parts) (writeOpenedFile id entry.stat.size) opened
        trace 0 after := by
    exact ⟨_, .call (0 : Int) (erase_erasing parts id _)
      (.call true rfl (copyRuns.bind closeRuns))⟩
  obtain ⟨trace, openedRuns⟩ := openedRuns
  have stat : (environment parts).answers world (.fsStat path)
      ((0 : Int), entry.stat) world :=
    ⟨rfl, fun _ => by simp [found]⟩
  have opens : (environment parts).answers world
      (.fsOpen path { read := true }) (0 : Int) opened :=
    ⟨entry, found, rfl⟩
  refine ⟨⟨.fsStat path, ((0 : Int), entry.stat)⟩ ::
    ⟨.flashAreaOpen id, (0 : Int)⟩ ::
    ⟨.fsOpen path { read := true }, (0 : Int)⟩ :: trace, after,
    .call _ stat ?_⟩
  dsimp only [Program.bind]
  rw [if_neg (by decide : ¬ (0 : Int) < 0), if_neg usable]
  apply Runs.call
  · exact rfl
  apply Runs.call
  · exact opens
  exact openedRuns

end ShortFile

section Exactness

variable {parts : Partitions} {id : UInt8} {path : CString} {world : World}

theorem getUpgradeTarget_eq_slot0 {trace : Trace} {target : UInt8}
    {after : World}
    (runs : Runs (environment parts) (getUpgradeTargetPartitionId parts) world
      trace target after) : target = parts.slot0Partition := by
  rw [getUpgradeTargetPartitionId_eq] at runs
  obtain ⟨answer, middle, rest, -, -, tail⟩ := runs_call_iff.mp runs
  exact (runs_done_iff.mp tail).2.1

/-- The byte after the end of the file cannot have been written. -/
theorem not_imageComplete_of_short {entry entry' : FileEntry}
    (found : world.files path = some entry)
    (found' : world.files path = some entry')
    (short : entry.content.length < entry.stat.size.toNat)
    {trace : Trace} {rc : Int} {ended after : World}
    (runs : Runs (environment parts) (writeOtaFileToPartition path id) world
      trace rc ended) : ¬ ImageComplete id entry' trace after := by
  intro complete
  obtain rfl : entry = entry' := Option.some.inj (found.symm.trans found')
  have written := complete.allWritten entry.content.length short
  exact absurd (writeOta_confined found _ _ _ runs _ written) (lt_irrefl _)

theorem covers_of_zeroMeansComplete
    (zeroMeans : ZeroMeansComplete parts path id world) :
    ContentCoversSize path world := by
  intro entry found regular
  by_contra notCovered
  have short := not_le.mp notCovered
  obtain ⟨trace, after, runs⟩ :=
    writeOta_runs_to_zero parts id found regular short
  obtain ⟨entry', found', complete⟩ := zeroMeans _ _ _ runs rfl
  exact not_imageComplete_of_short found found' short runs complete

theorem covers_of_triggerMeansComplete
    (triggerMeans : TriggerMeansComplete parts path world) :
    ContentCoversSize path world := by
  intro entry found regular
  by_contra notCovered
  have short := not_le.mp notCovered
  obtain ⟨copyTrace, copied, copyRuns⟩ :=
    writeOta_runs_to_zero parts parts.slot0Partition found regular short
  have fetches : (environment parts).answers world .bootFetchActiveSlot
      (parts.id world.running) world := ⟨rfl, rfl⟩
  have triggers : Runs (environment parts) triggerUpgrade copied
      [⟨.bootRequestUpgrade, (0 : Int)⟩, ⟨.kMsleep 100, ()⟩, ⟨.sysReboot, ()⟩]
      () copied := by
    apply Runs.call
    · exact rfl
    apply Runs.call
    · exact rfl
    apply Runs.call
    · exact rfl
    exact .done _ _
  have whole : Runs (environment parts) (performOtaUpgradeFromFile parts path)
      world (⟨.bootFetchActiveSlot, parts.id world.running⟩ :: (copyTrace ++
        [⟨.bootRequestUpgrade, (0 : Int)⟩, ⟨.kMsleep 100, ()⟩,
          ⟨.sysReboot, ()⟩])) () copied := by
    unfold performOtaUpgradeFromFile
    rw [getUpgradeTargetPartitionId_eq]
    exact .call _ fetches (copyRuns.bind triggers)
  obtain ⟨entry', target, fetch, found', fetchRuns, complete⟩ :=
    triggerMeans _ _ _ whole ⟨⟨.sysReboot, ()⟩, by simp, trivial⟩
  obtain rfl := getUpgradeTarget_eq_slot0 fetchRuns
  refine not_imageComplete_of_short found found' short copyRuns
    ⟨fun index below => ?_, complete.sameBytes⟩
  have written := complete.allWritten index below
  rwa [← List.singleton_append, writtenAt_of_noWrite_append (by simp [NoWrite]),
    writtenAt_append_of_noWrite (by simp [NoWrite])] at written

end Exactness

/-- A return of 0, and with it the request to boot the new image, is worth what
it says exactly when the file has as many bytes as reported. -/
theorem zero_means_complete_image_iff (parts : Partitions) (path : CString)
    (id : UInt8) (before : World) :
    (ZeroMeansComplete parts path id before ↔ ContentCoversSize path before) ∧
      (TriggerMeansComplete parts path before ↔
        ContentCoversSize path before) :=
  ⟨⟨covers_of_zeroMeansComplete, zeroMeansComplete_of_covers⟩,
    ⟨covers_of_triggerMeansComplete, fun covers =>
      triggerMeansComplete_of_zeroMeansComplete fun _ =>
        zeroMeansComplete_of_covers covers⟩⟩

/-- Every path names a regular file reported with one byte, of which a read
brings none. -/
def truncatedFileWorld : World where
  running := .slot1
  files := fun _ => some ⟨⟨.file, 1⟩, []⟩
  file := none
  flash := fun _ _ => 0

/-- Neither byte 0 is written nor the upgrade withheld. -/
theorem truncatedFile_taken_for_complete :
    ¬ ZeroMeansComplete ⟨1, 2, by decide⟩ [] 1 truncatedFileWorld ∧
      ¬ TriggerMeansComplete ⟨1, 2, by decide⟩ [] truncatedFileWorld := by
  have notCovered : ¬ ContentCoversSize [] truncatedFileWorld := by
    intro covers
    have longer := covers ⟨⟨.file, 1⟩, []⟩ rfl rfl
    exact absurd longer (by decide)
  exact ⟨fun zeroMeans => notCovered (covers_of_zeroMeansComplete zeroMeans),
    fun triggerMeans => notCovered (covers_of_triggerMeansComplete triggerMeans)⟩

end Upgrade

end SzpiSta
