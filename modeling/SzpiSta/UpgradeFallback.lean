import SzpiSta.UpgradeErase
import SzpiSta.UpgradeSlot

/-!
# What a failed upgrade leaves of the old image

An upgrade that is refused while file and partition are looked up and opened has
not touched the flash.  The buffer, however, is allocated after the erase, so
without memory for it the upgrade fails with the old image already erased; its
bytes are as before only where they were blank.
-/

namespace SzpiSta

namespace Upgrade

open ExternalCalls ExternalCalls.Program

/-- A failure reported by the erase, a read or a write. -/
def IoFails : Event Call.Answer → Prop
  | ⟨.flashAreaErase _ _ _, rc⟩ => rc < 0
  | ⟨.fsRead _, .error _ _⟩ => True
  | ⟨.flashAreaWrite _ _ _, rc⟩ => rc < 0
  | _ => False

/-- An allocation that brings no buffer. -/
def NoBuffer : Event Call.Answer → Prop
  | ⟨.kMalloc _, readBuf⟩ => readBuf = false
  | _ => False

/-- The calls of the copy loop. -/
def MadeByCopy : Call → Prop
  | .fsRead _ | .flashAreaWrite _ _ _ => True
  | _ => False

/-- The bytes an upgrade erases for a file of this size are blank. -/
def BlankFor (fileSize : UInt32) (id : UInt8) (world : World) : Prop :=
  ∀ index < (eraseSize fileSize).toNat, world.flash id index = 0xff

section Events

variable {id : UInt8} {event : Event Call.Answer}

theorem not_noBuffer_of_madeByCopy (made : MadeByCopy event.call) :
    ¬ NoBuffer event := by
  rcases event with ⟨call, answer⟩
  cases call <;> first | exact made.elim | exact not_false

theorem quiet_of_madeByCleanup (made : MadeByCleanup id event.call) :
    ¬ NoBuffer event ∧ ¬ IoFails event := by
  rcases event with ⟨call, answer⟩
  cases call <;> first | exact made.elim | exact ⟨not_false, not_false⟩

theorem quiet_of_madeByOpening (made : MadeByOpening event.call) :
    ¬ NoBuffer event ∧ ¬ IoFails event := by
  rcases event with ⟨call, answer⟩
  cases call <;> first | exact made.elim | exact ⟨not_false, not_false⟩

end Events

section CopyLoop

variable {parts : Partitions} {id : UInt8} {fileSize writeOffset : UInt32}
variable {world : World}

theorem copyChunk_made :
    Issues MadeByCopy (copyChunk id fileSize writeOffset) := by
  unfold copyChunk
  split
  · apply Issues.bind (issues_request.mpr trivial)
    rintro (⟨code, negative⟩ | ⟨bytes, fits⟩)
    · exact issues_pure
    · dsimp only
      split
      · exact issues_pure
      · refine Issues.bind (issues_request.mpr trivial) fun rc => ?_
        split <;> exact issues_pure
  · exact issues_pure

/-- A turn gives the copy up only with a failure of its read or its write. -/
theorem copyChunk_gives_up :
    Ensures (environment parts) (copyChunk id fileSize writeOffset) world
      fun trace step _ => ∀ rc, step = .leave (some rc) →
        ∃ event ∈ trace, IoFails event := by
  unfold copyChunk
  split
  case isFalse => simp
  case isTrue =>
  simp only [ensures_bind, ensures_request]
  rintro (⟨code, negative⟩ | ⟨bytes, fits⟩) middle -
  · rw [ensures_pure]
    exact fun rc _ => ⟨_, List.mem_append_left _ (List.mem_singleton_self _),
      trivial⟩
  dsimp only
  split
  · simp
  simp only [ensures_bind, ensures_request]
  rintro (writeRc : Int) after -
  split
  case isTrue failed =>
    rw [ensures_pure]
    intro rc _
    exact ⟨⟨.flashAreaWrite id writeOffset bytes, writeRc⟩, by simp, failed⟩
  case isFalse => simp

theorem copyFile_gives_up :
    Ensures (environment parts) (copyFile id fileSize) world
      fun trace failure _ => ∀ rc, failure = some rc →
        ∃ event ∈ trace, IoFails event := by
  refine ensures_loop (fun _ _ _ => True) ?_ _ trivial
  intro writeOffset trace world _
  refine copyChunk_gives_up.mono fun more step after givesUp => ?_
  cases step with
  | again next => trivial
  | leave failure =>
      rintro rc rfl
      obtain ⟨event, member, fails⟩ := givesUp rc rfl
      exact ⟨event, List.mem_append_right _ member, fails⟩

end CopyLoop

section WholeUpgrade

variable {parts : Partitions} {id : UInt8} {fileSize : UInt32} {world : World}

/-- An erase leaves the partition as it was exactly if what it erased was
blank. -/
theorem erase_keeps_iff {erased : World}
    (only : OnlyRange id 0 (eraseSize fileSize).toNat world erased)
    (blank : ∀ index < (eraseSize fileSize).toNat,
      erased.flash id (0 + index) = 0xff) :
    erased.flash id = world.flash id ↔ BlankFor fileSize id world := by
  constructor
  · intro same index inside
    rw [← same, ← blank index inside, Nat.zero_add]
  · intro wasBlank
    ext index : 1
    by_cases inside : index < (eraseSize fileSize).toNat
    · rw [wasBlank index inside, ← blank index inside, Nat.zero_add]
    · exact only.outside id index (by omega)

/-- A failure without a reported one leaves the partition as it was. -/
def KeepsFallback (id : UInt8) (before : World) (trace : Trace) (rc : Int)
    (after : World) : Prop :=
  rc < 0 → (∀ event ∈ trace, ¬ IoFails event) →
    after.flash id = before.flash id

theorem writeOpenedFile_fallback :
    Ensures (environment parts) (writeOpenedFile id fileSize) world
      fun trace rc after => KeepsFallback id world trace rc after ↔
        (∀ event ∈ trace, ¬ NoBuffer event) ∨ BlankFor fileSize id world := by
  intro trace rc after runs
  cases openedRun_of_runs runs with
  | eraseFails failed erase closes =>
      have made := closes.issued cleanup_issues
      refine iff_of_true (fun _ noFailure => ?_) (.inl fun event member => ?_)
      · exact (noFailure _ List.mem_cons_self failed).elim
      · rcases List.mem_cons.mp member with rfl | member
        · exact not_false
        · exact (quiet_of_madeByCleanup (made event member)).1
  | noBuffer erasedOk erase refused closes =>
      obtain rfl := refused
      obtain ⟨rfl, sameFlash, -⟩ := cleanup_ensures _ _ _ closes
      have made := closes.issued cleanup_issues
      rename_i eraseRc _ calls
      have noFailure : ∀ event ∈ ⟨.flashAreaErase id 0 (eraseSize fileSize),
          eraseRc⟩ :: (⟨.kMalloc chunkSize, false⟩ : Event Call.Answer) ::
            calls, ¬ IoFails event := by
        intro event member
        rcases List.mem_cons.mp member with rfl | member
        · exact erasedOk
        rcases List.mem_cons.mp member with rfl | member
        · exact not_false
        · exact (quiet_of_madeByCleanup (made event member)).2
      have noBuffer : ¬ ∀ event ∈ ⟨.flashAreaErase id 0 (eraseSize fileSize),
          eraseRc⟩ :: (⟨.kMalloc chunkSize, false⟩ : Event Call.Answer) ::
            calls, ¬ NoBuffer event :=
        fun all => all ⟨.kMalloc chunkSize, false⟩ (by simp) rfl
      rw [or_iff_right noBuffer,
        ← erase_keeps_iff erase.1 (erase.2 (Int.not_lt.mp erasedOk)),
        ← sameFlash]
      exact ⟨fun keeps => keeps (by decide) noFailure, fun same _ _ => same⟩
  | copies erasedOk erase given copyRuns closes =>
      obtain ⟨rfl, -, -⟩ := cleanup_ensures _ _ _ closes
      have made := closes.issued cleanup_issues
      have copies := copyRuns.issued
        (issues_loop (fun _ => copyChunk_made) _ _)
      refine iff_of_true (fun negative noFailure => ?_)
        (.inl fun event member => ?_)
      · rename_i failure
        cases failure with
        | some rc =>
            obtain ⟨event, member, fails⟩ :=
              copyFile_gives_up _ _ _ copyRuns rc rfl
            exact (noFailure event (by simp [member]) fails).elim
        | none => exact absurd negative (Int.lt_irrefl 0)
      · rcases List.mem_cons.mp member with rfl | member
        · exact not_false
        rcases List.mem_cons.mp member with rfl | member
        · exact fun noBuffer => Bool.noConfusion noBuffer
        rcases List.mem_append.mp member with member | member
        · exact not_noBuffer_of_madeByCopy (copies event member)
        · exact (quiet_of_madeByCleanup (made event member)).1

theorem flash_of_madeByOpening {call : Call} (made : MadeByOpening call)
    {before after : World} {answer : call.Answer}
    (answered : (environment parts).answers before call answer after) :
    after.flash = before.flash := by
  cases call with
  | fsStat path => rw [answered.1]
  | fsOpen path flags =>
      simp only [environment] at answered
      split at answered
      · rw [answered]
      · obtain ⟨entry, -, rfl⟩ := answered
        rfl
  | flashAreaOpen | flashAreaClose =>
      have same : after = before := answered
      rw [same]
  | _ => exact made.elim

/-- For every file, partition and outcome of the calls: an upgrade that fails
without a failure reported by an erase, a read or a write leaves the partition
as it was, exactly if the buffer was allocated or what was erased was blank. -/
theorem failed_upgrade_keeps_partition_iff (parts : Partitions)
    (path : CString) (id : UInt8) (before : World) :
    Ensures (environment parts) (writeOtaFileToPartition path id) before
      fun trace rc after => KeepsFallback id before trace rc after ↔
        (∀ event ∈ trace, ¬ NoBuffer event) ∨
          ∀ entry, before.files path = some entry →
            BlankFor entry.stat.size id before := by
  intro trace rc after runs
  rcases writeOta_splits _ _ _ runs with ⟨-, -, made⟩ |
    ⟨entry, opening, rest, found, -, -, opens, rfl, restRuns⟩
  · have kept : after.flash = before.flash :=
      runs.frame World.flash
        (fun _ _ _ _ made answered => flash_of_madeByOpening made answered) made
    refine iff_of_true (fun _ _ => by rw [kept]) (.inl fun event member => ?_)
    exact (quiet_of_madeByOpening (made event member)).1
  · have quiet (event) (member : event ∈ opening) :=
      quiet_of_madeByOpening (opens event member).2
    have fallback := writeOpenedFile_fallback _ _ _ restRuns
    rw [KeepsFallback, List.forall_mem_append,
      and_iff_right fun event member => (quiet event member).2,
      List.forall_mem_append,
      and_iff_right fun event member => (quiet event member).1]
    simp only [found, Option.some.injEq, forall_eq']
    exact fallback

end WholeUpgrade

/-- Slot 1 holds an image of zeros, and every path names a file of one byte. -/
def oldImageWorld : World where
  running := .slot0
  files _ := some ⟨⟨.file, 1⟩, [7]⟩
  file := none
  flash _ _ := 0

/-- The upgrade that gets no buffer. -/
def unbufferedUpgrade : Trace :=
  [⟨.fsStat [], ((0 : Int), (⟨.file, 1⟩ : FsDirent))⟩,
    ⟨.flashAreaOpen 2, (0 : Int)⟩, ⟨.fsOpen [] { read := true }, (0 : Int)⟩,
    ⟨.flashAreaErase 2 0 (eraseSize 1), (0 : Int)⟩,
    ⟨.kMalloc chunkSize, false⟩,
    ⟨.fsClose, ()⟩, ⟨.flashAreaClose 2, ()⟩]

/-- Without memory the upgrade fails after it has erased the old image. -/
theorem unbuffered_upgrade_erases_old_image : ∃ after,
    Runs (environment sampleParts) (writeOtaFileToPartition [] 2) oldImageWorld
        unbufferedUpgrade (-eNoMem) after ∧
      (∀ event ∈ unbufferedUpgrade, ¬ IoFails event) ∧
      oldImageWorld.flash 2 0 = 0 ∧ after.flash 2 0 = 0xff := by
  let opened : World := { oldImageWorld with file := some ([7], 0) }
  let erased : World := opened.erasing 2 (eraseSize 1).toNat
  refine ⟨{ erased with file := none }, ?_, ?_, rfl, ?_⟩
  · apply Runs.call
    · exact ⟨rfl, fun _ => rfl⟩
    apply Runs.call
    · exact rfl
    apply Runs.call
    · exact (⟨_, rfl, rfl⟩ : ∃ entry, oldImageWorld.files [] = some entry ∧
        opened = { oldImageWorld with file := some (entry.content, 0) })
    apply Runs.call
    · exact erase_erasing sampleParts 2 (eraseSize 1)
    apply Runs.call
    · exact rfl
    apply Runs.call
    · exact rfl
    apply Runs.call
    · exact rfl
    exact .done _ _
  · simp [unbufferedUpgrade, IoFails]
  · have inside : 0 < (eraseSize 1).toNat := by decide
    simp [erased, World.erasing, inside]

end Upgrade

end SzpiSta
