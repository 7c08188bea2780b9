import SzpiSta.TransitionPaths
import SzpiSta.UpgradeRuns

/-!
# Which partition an upgrade erases and writes

`SLOT0_PART_ID` and `SLOT1_PART_ID` are the same id, so the target of every
upgrade is the partition of slot 0, whichever slot is running.  An upgrade
therefore keeps off the running image when slot 1 is running, or when an answer
stops it before the erase, and in no other case.
-/

namespace SzpiSta

namespace Upgrade

open ExternalCalls ExternalCalls.Program TransitionPaths

/-- The slot whose image is not running. -/
def Slot.other : Slot → Slot
  | .slot0 => .slot1
  | .slot1 => .slot0

/-- One upgrade command: the file it was given, the calls it made and the world
in which it ended. -/
structure CommandRun where
  binFilePath : CString
  trace : Trace
  ended : World

/-- Run one upgrade command.  Until the next command the files may change, and
if the command rebooted the board so may the running slot and the flash, which
is then the bootloader's. -/
def CommandStep (parts : Partitions) (before : World) (run : CommandRun)
    (next : World) : Prop :=
  Runs (environment parts) (performOtaUpgradeFromFile parts run.binFilePath)
      before run.trace () run.ended ∧
    ((∀ event ∈ run.trace, event.call ≠ .sysReboot) →
      next.running = run.ended.running ∧ next.flash = run.ended.flash)

/-- The command erased and wrote only the partition that is not running, and
the running one kept every byte. -/
structure LeavesRunningSlot (parts : Partitions) (before : World)
    (run : CommandRun) : Prop where
  targetsOther : ∀ event ∈ run.trace, ∀ target,
    event.call.flashTarget = some target →
      target = parts.id before.running.other
  bytesKept :
    run.ended.flash (parts.id before.running) =
      before.flash (parts.id before.running)

/-- Slot 1 is running, or an answer stops the command before the erase. -/
def KeepsOffRunningSlot (before : World) (run : CommandRun) : Prop :=
  before.running = .slot1 ∨ ∃ event ∈ run.trace, Refuses event

section CommandRuns

variable {parts : Partitions} {before : World} {path : CString}

theorem flash_frame {id other : UInt8} (different : other ≠ id)
    {call : Call} (targets : ∀ target, call.flashTarget = some target →
      target = id) {after : World} {answer : call.Answer}
    (answered : (environment parts).answers before call answer after) :
    after.flash other = before.flash other := by
  have outside {offset length : Nat}
      (only : OnlyRange id offset length before after) :
      after.flash other = before.flash other := by
    funext index
    exact only.outside other index fun inside => different inside.1
  cases call with
  | flashAreaErase target offset size =>
      obtain rfl : target = id := targets target rfl
      exact outside answered.1
  | flashAreaWrite target offset data =>
      obtain rfl : target = id := targets target rfl
      exact outside answered.1
  | fsStat path => rw [answered.1]
  | bootFetchActiveSlot => rw [answered.2]
  | fsOpen path flags =>
      simp only [environment] at answered
      split at answered
      · rw [answered]
      · obtain ⟨entry, -, rfl⟩ := answered
        rfl
  | fsRead count =>
      cases answer with
      | error code negative =>
          have same : after = before := answered
          rw [same]
      | data bytes fits =>
          obtain ⟨content, position, -, -, rfl⟩ := answered
          rfl
  | fsClose =>
      have same : after = { before with file := none } := answered
      rw [same]
  | flashAreaOpen | kMalloc | kFree | flashAreaClose | bootRequestUpgrade |
      kMsleep | sysReboot =>
      have same : after = before := answered
      rw [same]

/-- What one command does to flash: nothing after a refusal, else it starts by
erasing the partition of slot 0 and touches no other. -/
theorem performOta_cases :
    Ensures (environment parts) (performOtaUpgradeFromFile parts path) before
      fun trace _ _ =>
        ((∃ event ∈ trace, Refuses event) ∧
            ∀ event ∈ trace, event.call.flashTarget = none) ∨
          ((∀ event ∈ trace, ¬ Refuses event) ∧
            (∃ event ∈ trace,
              event.call.flashTarget = some parts.slot0Partition) ∧
            ∀ event ∈ trace, ∀ target, event.call.flashTarget = some target →
              target = parts.slot0Partition) := by
  unfold performOtaUpgradeFromFile
  rw [getUpgradeTargetPartitionId_eq]
  simp only [ensures_bind, ensures_request, ensures_pure]
  rintro activeAreaId _ -
  refine writeOta_cases.mono ?_
  rintro trace rc after written tail _ last tailRuns
  -- What follows the copy asks the bootloader, or nothing at all.
  have tailIssued : ∀ event ∈ tail, MadeByTrigger event.call := by
    split at tailRuns
    · exact tailRuns.issued triggerUpgrade_issues
    · obtain ⟨rfl, -, -⟩ := runs_done_iff.mp tailRuns
      simp
  rcases written with ⟨-, ⟨event, member, refuses⟩, untouched⟩ |
    ⟨entry, opening, rest, -, -, -, quiet, rfl, runs⟩
  · refine .inl ⟨⟨event, by simp [member], refuses⟩, ?_⟩
    intro event member
    simp only [List.cons_append, List.nil_append, List.mem_cons,
      List.mem_append] at member
    rcases member with rfl | member | member
    · rfl
    · exact untouched event member
    · exact flashTarget_of_madeByTrigger (tailIssued event member)
  · have restIssued := runs.issued writeOpenedFile_issues
    obtain ⟨answer, middle, restTail, rfl, -, -⟩ := runs_call_iff.mp runs
    have issued : ∀ event ∈ ⟨.bootFetchActiveSlot, activeAreaId⟩ ::
        (opening ++ (⟨.flashAreaErase parts.slot0Partition 0
          (eraseSize entry.stat.size), answer⟩ :: restTail) ++ tail),
        ¬ Refuses event ∧ ∀ target, event.call.flashTarget = some target →
          target = parts.slot0Partition := by
      intro event member
      rw [List.mem_cons, List.mem_append, List.mem_append] at member
      rcases member with rfl | (member | member) | member
      · exact ⟨id, fun _ targets => by simp [Call.flashTarget] at targets⟩
      · obtain ⟨notRefused, untouched⟩ := quiet event member
        exact ⟨notRefused, fun _ targets => by simp [untouched] at targets⟩
      · have made := restIssued event member
        exact ⟨not_refuses_of_madeAfterOpening made,
          fun _ => flashTarget_of_madeAfterOpening made⟩
      · have made := tailIssued event member
        refine ⟨not_refuses_of_madeByTrigger made, fun _ targets => ?_⟩
        simp [flashTarget_of_madeByTrigger made] at targets
    refine .inr ⟨fun event member => (issued event member).1, ?_,
      fun event member => (issued event member).2⟩
    exact ⟨⟨.flashAreaErase parts.slot0Partition 0 (eraseSize entry.stat.size),
      answer⟩, by simp, rfl⟩

theorem Partitions.id_ne_id_other (slot : Slot) :
    parts.id slot ≠ parts.id slot.other := by
  cases slot with
  | slot0 => exact parts.distinct
  | slot1 => exact parts.distinct.symm

theorem leavesRunningSlot_iff {run : CommandRun}
    (runs : Runs (environment parts)
      (performOtaUpgradeFromFile parts run.binFilePath) before run.trace ()
      run.ended) :
    LeavesRunningSlot parts before run ↔ KeepsOffRunningSlot before run := by
  constructor
  · intro leaves
    by_contra reaches
    rw [KeepsOffRunningSlot, not_or] at reaches
    have running : before.running = .slot0 := by
      cases slot : before.running with
      | slot0 => rfl
      | slot1 => exact (reaches.1 slot).elim
    rcases performOta_cases _ _ _ runs with ⟨refused, -⟩ |
      ⟨-, ⟨event, member, targets⟩, -⟩
    · exact reaches.2 refused
    · have same := leaves.targetsOther event member _ targets
      rw [running] at same
      exact parts.distinct same
  · intro keepsOff
    have targetsOther : ∀ event ∈ run.trace, ∀ target,
        event.call.flashTarget = some target →
          target = parts.id before.running.other := by
      rcases performOta_cases _ _ _ runs with ⟨-, untouched⟩ |
        ⟨notRefused, -, targets⟩
      · intro event member target isTarget
        simp [untouched event member] at isTarget
      · have running : before.running = .slot1 := by
          rcases keepsOff with running | ⟨event, member, refuses⟩
          · exact running
          · exact (notRefused event member refuses).elim
        rw [running]
        exact targets
    refine ⟨targetsOther, ?_⟩
    exact runs.frame (fun world => world.flash (parts.id before.running))
      (fun _ _ _ _ targets answered =>
        flash_frame (parts.id_ne_id_other before.running) targets answered)
      targetsOther

end CommandRuns

/-- Over any sequence of upgrade commands, every command leaves the partition of
the running image alone exactly if each runs from slot 1 or is stopped before
its erase. -/
theorem upgrades_leave_running_slot_iff (parts : Partitions)
    (start finish : World) (commands : List CommandRun) :
    EveryStep (CommandStep parts)
        (fun before run _ => LeavesRunningSlot parts before run)
        start commands finish ↔
      EveryStep (CommandStep parts)
        (fun before run _ => KeepsOffRunningSlot before run)
        start commands finish :=
  everyStep_congr fun _ _ _ taken => leavesRunningSlot_iff taken.1

section RunningFromSlot0

/-- Partition ids as a build assigns them. -/
def sampleParts : Partitions := ⟨1, 2, by decide⟩

/-- Slot 0 is running, every path names a file of one byte and every flash byte
is zero. -/
def slot0World : World where
  running := .slot0
  files := fun _ => some ⟨⟨.file, 1⟩, [0xa5]⟩
  file := none
  flash := fun _ _ => 0

/-- The erase succeeds and then no buffer can be allocated. -/
def erasingRun : CommandRun where
  binFilePath := []
  trace := [⟨.bootFetchActiveSlot, (1 : UInt8)⟩,
    ⟨.fsStat [], ((0 : Int), (⟨.file, 1⟩ : FsDirent))⟩,
    ⟨.flashAreaOpen 1, (0 : Int)⟩,
    ⟨.fsOpen [] { read := true }, (0 : Int)⟩,
    ⟨.flashAreaErase 1 0 4096, (0 : Int)⟩,
    ⟨.kMalloc chunkSize, false⟩,
    ⟨.fsClose, ()⟩,
    ⟨.flashAreaClose 1, ()⟩]
  ended :=
    { slot0World with
      flash := fun id index => if id = 1 ∧ index < 4096 then 0xff else 0 }

theorem erase_slot0World :
    (environment sampleParts).answers
      { slot0World with file := some ([0xa5], 0) } (.flashAreaErase 1 0 4096)
      (0 : Int) { erasingRun.ended with file := some ([0xa5], 0) } := by
  refine ⟨⟨rfl, rfl, rfl, fun id index outside => ?_⟩,
    fun _ index inside => ?_⟩
  · exact if_neg fun erased => outside ⟨erased.1, by simp, by simpa using erased.2⟩
  · exact if_pos ⟨rfl, by simpa using inside⟩

theorem erasingRun_commandStep :
    CommandStep sampleParts slot0World erasingRun erasingRun.ended := by
  refine ⟨?_, fun _ => ⟨rfl, rfl⟩⟩
  apply Runs.call
  · exact ⟨rfl, rfl⟩
  apply Runs.call
  · exact ⟨rfl, fun _ => rfl⟩
  apply Runs.call
  · exact rfl
  apply Runs.call
  · exact ⟨_, rfl, rfl⟩
  apply Runs.call
  · exact erase_slot0World
  apply Runs.call
  · exact rfl
  apply Runs.call
  · exact rfl
  apply Runs.call
  · exact rfl
  exact .done _ _

/-- The partition it erases is the one it runs from. -/
theorem erasingRun_erases_running_slot :
    ¬ EveryStep (CommandStep sampleParts)
      (fun before run _ => LeavesRunningSlot sampleParts before run)
      slot0World [erasingRun] erasingRun.ended := by
  intro every
  have leaves := every [] erasingRun [] _ _ rfl (.nil _)
    erasingRun_commandStep (.nil _)
  have same := leaves.targetsOther
    ⟨.flashAreaErase 1 0 4096, (0 : Int)⟩ (by simp [erasingRun]) 1 rfl
  exact absurd same (by decide)

end RunningFromSlot0

end Upgrade

end SzpiSta
