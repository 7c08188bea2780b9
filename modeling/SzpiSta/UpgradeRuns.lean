import SzpiSta.Upgrade

/-!
# The runs of an upgrade

An upgrade either is refused by one of the calls that look up and open the file
and the partition, and then erases and writes nothing, or opens both and goes on
with the erase.  Every later fact about upgrades starts from this split.
-/

namespace SzpiSta

namespace Upgrade

open ExternalCalls ExternalCalls.Program

abbrev Trace := List (Event Call.Answer)

/-- The partition a call erases or writes. -/
def Call.flashTarget : Call → Option UInt8
  | .flashAreaErase id _ _ => some id
  | .flashAreaWrite id _ _ => some id
  | _ => none

/-- Answers that end an upgrade before it erases anything. -/
def Refuses : Event Call.Answer → Prop
  | ⟨.fsStat _, (rc, dirent)⟩ =>
      rc < 0 ∨ dirent.type ≠ .file ∨ dirent.size = 0
  | ⟨.flashAreaOpen _, rc⟩ => rc < 0
  | ⟨.fsOpen _ _, rc⟩ => rc < 0
  | _ => False

/-- No answer of the trace refuses, and nothing is erased or written. -/
def Quiet (trace : Trace) : Prop :=
  ∀ event ∈ trace, ¬ Refuses event ∧ event.call.flashTarget = none

/-- The calls that look up and open the file and the partition, or give the
partition up again. -/
def MadeByOpening : Call → Prop
  | .fsStat _ | .flashAreaOpen _ | .fsOpen _ _ | .flashAreaClose _ => True
  | _ => False

/-- The calls a run makes once file and partition `id` are open. -/
def MadeAfterOpening (id : UInt8) : Call → Prop
  | .flashAreaErase target _ _ => target = id
  | .flashAreaWrite target _ _ => target = id
  | .flashAreaClose target => target = id
  | .kMalloc _ | .fsRead _ | .kFree | .fsClose => True
  | _ => False

/-- Those of them after the erase. -/
def MadeAfterErase (id : UInt8) : Call → Prop
  | .flashAreaWrite target _ _ => target = id
  | .flashAreaClose target => target = id
  | .kMalloc _ | .fsRead _ | .kFree | .fsClose => True
  | _ => False

/-- Those of the clean-up. -/
def MadeByCleanup (id : UInt8) : Call → Prop
  | .flashAreaClose target => target = id
  | .kFree | .fsClose => True
  | _ => False

/-- The calls of `triggerUpgrade`. -/
def MadeByTrigger : Call → Prop
  | .bootRequestUpgrade | .kMsleep _ | .sysReboot => True
  | _ => False

theorem flashTarget_of_madeByOpening {call : Call} (made : MadeByOpening call) :
    call.flashTarget = none := by
  cases call <;> first | rfl | exact made.elim

theorem madeAfterErase_of_madeByCleanup {id : UInt8} {call : Call}
    (made : MadeByCleanup id call) : MadeAfterErase id call := by
  cases call <;> first | exact made.elim | exact made

theorem madeAfterOpening_of_madeAfterErase {id : UInt8} {call : Call}
    (made : MadeAfterErase id call) : MadeAfterOpening id call := by
  cases call <;> first | exact made.elim | exact made

theorem not_refuses_of_madeAfterOpening {id : UInt8}
    {event : Event Call.Answer} (made : MadeAfterOpening id event.call) :
    ¬ Refuses event := by
  rcases event with ⟨call, answer⟩
  cases call <;> first | exact made.elim | exact not_false

theorem flashTarget_of_madeAfterOpening {id target : UInt8} {call : Call}
    (made : MadeAfterOpening id call)
    (targets : call.flashTarget = some target) : target = id := by
  cases call <;> first
    | exact made.elim
    | exact (Option.some.inj targets).symm.trans made
    | cases targets

theorem not_refuses_of_madeByTrigger {event : Event Call.Answer}
    (made : MadeByTrigger event.call) : ¬ Refuses event := by
  rcases event with ⟨call, answer⟩
  cases call <;> first | exact made.elim | exact not_false

theorem flashTarget_of_madeByTrigger {call : Call} (made : MadeByTrigger call) :
    call.flashTarget = none := by
  cases call <;> first | rfl | exact made.elim

/-- Both macros name one partition, so the running slot makes no difference. -/
theorem getUpgradeTargetPartitionId_eq (parts : Partitions) :
    getUpgradeTargetPartitionId parts =
      (do let _ ← ask .bootFetchActiveSlot; return parts.slot0Partition) := by
  unfold getUpgradeTargetPartitionId
  congr 1
  funext activeAreaId
  split <;> rfl

section Calls

variable {fa id : UInt8} {fileSize writeOffset : UInt32}

theorem copyChunk_issues :
    Issues (MadeAfterErase fa) (copyChunk fa fileSize writeOffset) := by
  unfold copyChunk
  split
  · apply Issues.bind (issues_request.mpr trivial)
    rintro (⟨code, negative⟩ | ⟨bytes, fits⟩)
    · exact issues_pure
    · dsimp only
      split
      · exact issues_pure
      · refine Issues.bind (issues_request.mpr rfl) fun rc => ?_
        split <;> exact issues_pure
  · exact issues_pure

theorem cleanup_issues {readBuf : Bool} {rc : Int} :
    Issues (MadeByCleanup fa) (cleanup fa readBuf rc) := by
  have closing : Issues (MadeByCleanup fa) (cleanup fa false rc) :=
    ⟨trivial, fun _ => ⟨rfl, fun _ => trivial⟩⟩
  cases readBuf with
  | false => exact closing
  | true => exact ⟨trivial, fun _ => closing⟩

theorem writeOpenedFile_issues :
    Issues (MadeAfterOpening id) (writeOpenedFile id fileSize) := by
  have closing {readBuf : Bool} {rc : Int} :
      Issues (MadeAfterErase id) (cleanup id readBuf rc) :=
    cleanup_issues.mono fun _ => madeAfterErase_of_madeByCleanup
  unfold writeOpenedFile
  refine Issues.bind (issues_request.mpr rfl) fun rc => ?_
  refine Issues.mono ?_ fun _ => madeAfterOpening_of_madeAfterErase
  split
  · exact closing
  refine Issues.bind (issues_request.mpr trivial) fun readBuf => ?_
  split
  · exact closing
  refine Issues.bind (issues_loop (fun _ => copyChunk_issues) _ _) ?_
  rintro (_ | rc) <;> exact closing

theorem triggerUpgrade_issues : Issues MadeByTrigger triggerUpgrade := by
  unfold triggerUpgrade
  refine Issues.bind (issues_request.mpr trivial) fun rc => ?_
  split
  · exact issues_pure
  · exact ⟨trivial, fun _ => ⟨trivial, fun _ => trivial⟩⟩

/-- The copy never asks the bootloader for anything. -/
theorem writeOta_issues {path : CString} :
    Issues (fun call => ¬ MadeByTrigger call)
      (writeOtaFileToPartition path id) := by
  unfold writeOtaFileToPartition
  refine Issues.bind (issues_request.mpr not_false) fun (rc, fileStat) => ?_
  dsimp only
  split
  · exact issues_pure
  split
  · exact issues_pure
  refine Issues.bind (issues_request.mpr not_false) fun rc => ?_
  split
  · exact issues_pure
  refine Issues.bind (issues_request.mpr not_false) fun rc => ?_
  split
  · exact Issues.bind (issues_request.mpr not_false) fun _ => issues_pure
  · refine writeOpenedFile_issues.mono fun call made => ?_
    cases call <;> first | exact made.elim | exact not_false

end Calls

section Completion

variable {parts : Partitions} {fa id : UInt8} {path : CString}
variable {fileSize writeOffset : UInt32} {world : World}

theorem bytesToRead_toNat (before : writeOffset < fileSize) :
    (min chunkSize (fileSize - writeOffset)).toNat =
      min 1024 (fileSize.toNat - writeOffset.toNat) := by
  have difference := UInt32.toNat_sub_of_le _ _ (UInt32.le_of_lt before)
  have chunk : chunkSize.toNat = 1024 := rfl
  change (if chunkSize ≤ fileSize - writeOffset then chunkSize
    else fileSize - writeOffset).toNat = _
  split
  case isTrue small =>
    rw [UInt32.le_iff_toNat_le] at small
    omega
  case isFalse large =>
    rw [UInt32.le_iff_toNat_le] at large
    omega

theorem writeOffset_add {bytes : List UInt8} (before : writeOffset < fileSize)
    (fits : bytes.length ≤ (min chunkSize (fileSize - writeOffset)).toNat) :
    (writeOffset + UInt32.ofNat bytes.length).toNat =
        writeOffset.toNat + bytes.length ∧
      writeOffset.toNat + bytes.length ≤ fileSize.toNat := by
  rw [bytesToRead_toNat before] at fits
  have := fileSize.toNat_lt
  have := UInt32.lt_iff_toNat_lt.mp before
  rw [UInt32.toNat_add, UInt32.toNat_ofNat']
  omega

theorem copyChunk_completes :
    Completes (environment parts) (copyChunk fa fileSize writeOffset) world := by
  unfold copyChunk
  split
  · apply completes_request_bind
    rintro (⟨code, negative⟩ | ⟨bytes, fits⟩) after -
    · exact completes_pure
    · dsimp only
      split
      · exact completes_pure
      · refine completes_request_bind fun rc after _ => ?_
        split <;> exact completes_pure
  · exact completes_pure

/-- A turn that goes on has moved the write offset towards the size. -/
theorem copyChunk_advances :
    Ensures (environment parts) (copyChunk fa fileSize writeOffset) world
      fun _ step _ => ∀ next, step = .again next →
        fileSize.toNat - next.toNat < fileSize.toNat - writeOffset.toNat := by
  unfold copyChunk
  split
  case isFalse => simp
  case isTrue before =>
  simp only [ensures_bind, ensures_request]
  rintro (⟨code, negative⟩ | ⟨bytes, fits⟩) middle -
  · simp
  dsimp only
  split
  case isTrue => simp
  case isFalse something =>
  simp only [ensures_bind, ensures_request]
  rintro rc after -
  split
  · simp
  · rw [ensures_pure]
    rintro next goesOn
    obtain rfl : _ = next := LoopStep.again.inj goesOn
    have := writeOffset_add before fits
    rw [UInt32.lt_iff_toNat_lt] at before
    omega

theorem copyFile_completes :
    Completes (environment parts) (copyFile fa fileSize) world := by
  refine completes_loop (fun _ _ => True)
    (fun writeOffset _ => fileSize.toNat - writeOffset.toNat)
    (fun _ _ _ => copyChunk_completes) (fun _ _ _ => ?_) trivial (by simp)
  refine copyChunk_advances.mono fun _ _ _ advances next goesOn => ?_
  exact ⟨trivial, advances next goesOn⟩

theorem cleanup_completes {readBuf : Bool} {rc : Int} :
    Completes (environment parts) (cleanup fa readBuf rc) world := by
  have closing (world : World) :
      Completes (environment parts) (cleanup fa false rc) world :=
    fun _ _ _ _ _ _ => completes_pure
  cases readBuf with
  | false => exact closing world
  | true => exact fun _ after _ => closing after

/-- The fuel of the copy loop never cuts an upgrade short. -/
theorem writeOta_completes :
    Completes (environment parts) (writeOtaFileToPartition path id) world := by
  unfold writeOtaFileToPartition
  refine completes_request_bind fun stat after _ => ?_
  dsimp only
  split
  · exact completes_pure
  split
  · exact completes_pure
  refine completes_request_bind fun areaRc after _ => ?_
  split
  · exact completes_pure
  refine completes_request_bind fun openRc after _ => ?_
  split
  · exact completes_request_bind fun _ _ _ => completes_pure
  unfold writeOpenedFile
  refine completes_request_bind fun eraseRc after _ => ?_
  split
  · exact cleanup_completes
  refine completes_request_bind fun readBuf after _ => ?_
  split
  · exact cleanup_completes
  apply copyFile_completes.bind
  rintro _ (_ | rc) after - <;> exact cleanup_completes

end Completion

section Opening

variable {parts : Partitions} {path : CString} {id : UInt8} {before : World}

/-- Both ways a run can go, with the calls up to the erase and the world in
which the erase finds itself. -/
theorem writeOta_splits :
    Ensures (environment parts) (writeOtaFileToPartition path id) before
      fun trace rc after =>
        (rc < 0 ∧ (∃ event ∈ trace, Refuses event) ∧
            ∀ event ∈ trace, MadeByOpening event.call) ∨
          ∃ entry opening rest, before.files path = some entry ∧
            entry.stat.type = .file ∧ entry.stat.size ≠ 0 ∧
            (∀ event ∈ opening, ¬ Refuses event ∧ MadeByOpening event.call) ∧
            trace = opening ++ rest ∧
            Runs (environment parts) (writeOpenedFile id entry.stat.size)
              { before with file := some (entry.content, 0) } rest rc
              after := by
  unfold writeOtaFileToPartition
  simp only [ensures_bind, ensures_request]
  rintro ⟨statRc, dirent⟩ _ ⟨rfl, reported⟩
  dsimp only
  split
  case isTrue failed =>
    refine ensures_pure.mpr (.inl ⟨failed, ?_⟩)
    simp [Refuses, MadeByOpening, failed]
  case isFalse statOk =>
  split
  case isTrue unusable =>
    refine ensures_pure.mpr (.inl ⟨by decide, ?_⟩)
    simpa [Refuses, MadeByOpening] using Or.inr unusable
  case isFalse usable =>
  simp only [ensures_bind, ensures_request]
  rintro (areaRc : Int) _ rfl
  split
  case isTrue failed =>
    refine ensures_pure.mpr (.inl ⟨failed, ?_⟩)
    simp [Refuses, MadeByOpening, failed]
  case isFalse areaOk =>
  simp only [ensures_bind, ensures_request]
  rintro (openRc : Int) opened answered
  split
  case isTrue failed =>
    simp only [ensures_bind, ensures_request, ensures_pure]
    rintro _ _ -
    refine .inl ⟨failed, ?_⟩
    simp [Refuses, MadeByOpening, failed]
  case isFalse openOk =>
  rintro rest rc after runs
  obtain ⟨entry, found, rfl⟩ : ∃ entry, _ ∧ _ := by
    simpa [environment, openOk] using answered
  have sameEntry : entry.stat = dirent := by
    simpa [found] using reported (by omega)
  subst sameEntry
  rw [not_or, not_not] at usable
  refine .inr ⟨entry, [⟨.fsStat path, (statRc, entry.stat)⟩,
    ⟨.flashAreaOpen id, areaRc⟩, ⟨.fsOpen path { read := true }, openRc⟩],
    rest, found, usable.1, usable.2, ?_, rfl, runs⟩
  simp [Refuses, MadeByOpening, statOk, areaOk, openOk, usable]

theorem writeOta_cases :
    Ensures (environment parts) (writeOtaFileToPartition path id) before
      fun trace rc after =>
        (rc < 0 ∧ (∃ event ∈ trace, Refuses event) ∧
            ∀ event ∈ trace, event.call.flashTarget = none) ∨
          ∃ entry opening rest, before.files path = some entry ∧
            entry.stat.type = .file ∧ entry.stat.size ≠ 0 ∧ Quiet opening ∧
            trace = opening ++ rest ∧
            Runs (environment parts) (writeOpenedFile id entry.stat.size)
              { before with file := some (entry.content, 0) } rest rc
              after := by
  refine writeOta_splits.mono fun trace rc after cases => ?_
  rcases cases with ⟨negative, refused, made⟩ |
    ⟨entry, opening, rest, found, isFile, size, made, split, runs⟩
  · refine .inl ⟨negative, refused, fun event member => ?_⟩
    exact flashTarget_of_madeByOpening (made event member)
  · refine .inr ⟨entry, opening, rest, found, isFile, size, ?_, split, runs⟩
    intro event member
    obtain ⟨accepted, byOpening⟩ := made event member
    exact ⟨accepted, flashTarget_of_madeByOpening byOpening⟩

end Opening

section Opened

variable {W : Type} {env : Environment Call.Answer W} {id : UInt8}
variable {fileSize : UInt32} {before : W}

/-- The ways through `write_ota_file_to_partition` once file and partition are
open: the erase fails, there is no buffer, or the file is copied. -/
inductive OpenedRun (env : Environment Call.Answer W) (id : UInt8)
    (fileSize : UInt32) (before : W) : Trace → Int → W → Prop where
  | eraseFails {eraseRc rc : Int} {erased after : W} {closing : Trace}
      (failed : eraseRc < 0)
      (erase : env.answers before
        (.flashAreaErase id 0 (eraseSize fileSize)) eraseRc erased)
      (closes : Runs env (cleanup id false eraseRc) erased closing rc after) :
      OpenedRun env id fileSize before
        (⟨.flashAreaErase id 0 (eraseSize fileSize), eraseRc⟩ :: closing) rc
        after
  | noBuffer {eraseRc rc : Int} {erased middle after : W} {closing : Trace}
      (erasedOk : ¬ eraseRc < 0)
      (erase : env.answers before
        (.flashAreaErase id 0 (eraseSize fileSize)) eraseRc erased)
      (refused : env.answers erased (.kMalloc chunkSize) false middle)
      (closes : Runs env (cleanup id false (-eNoMem)) middle closing rc
        after) :
      OpenedRun env id fileSize before
        (⟨.flashAreaErase id 0 (eraseSize fileSize), eraseRc⟩ ::
          ⟨.kMalloc chunkSize, false⟩ :: closing) rc after
  | copies {eraseRc rc : Int} {erased middle copied after : W}
      {copying closing : Trace} {failure : Option Int}
      (erasedOk : ¬ eraseRc < 0)
      (erase : env.answers before
        (.flashAreaErase id 0 (eraseSize fileSize)) eraseRc erased)
      (given : env.answers erased (.kMalloc chunkSize) true middle)
      (copyRuns : Runs env (copyFile id fileSize) middle copying failure copied)
      (closes : Runs env (cleanup id true (failure.getD 0)) copied closing rc
        after) :
      OpenedRun env id fileSize before
        (⟨.flashAreaErase id 0 (eraseSize fileSize), eraseRc⟩ ::
          ⟨.kMalloc chunkSize, true⟩ :: (copying ++ closing)) rc after

theorem openedRun_of_runs {trace : Trace} {rc : Int} {after : W}
    (runs : Runs env (writeOpenedFile id fileSize) before trace rc after) :
    OpenedRun env id fileSize before trace rc after := by
  suffices every : Ensures env (writeOpenedFile id fileSize) before
      (OpenedRun env id fileSize before) from every _ _ _ runs
  unfold writeOpenedFile
  simp only [ensures_bind, ensures_request]
  intro eraseRc erased erase
  split
  case isTrue failed =>
    exact fun closing rc after closes => .eraseFails failed erase closes
  case isFalse erasedOk =>
  simp only [ensures_bind, ensures_request]
  rintro (readBuf : Bool) middle allocated
  cases readBuf with
  | false =>
      exact fun closing rc after closes =>
        .noBuffer erasedOk erase allocated closes
  | true =>
      rw [if_neg (by decide), ensures_bind]
      intro copying failure copied copyRuns closing rc after closes
      have closes : Runs env (cleanup id true (failure.getD 0)) copied closing
          rc after := by
        cases failure <;> exact closes
      have copies := OpenedRun.copies erasedOk erase allocated copyRuns closes
      exact copies

end Opened

end Upgrade

end SzpiSta
