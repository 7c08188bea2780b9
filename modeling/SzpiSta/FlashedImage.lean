import SzpiSta.DownloadSessions
import SzpiSta.HttpDlVerified
import SzpiSta.UpgradeImage
import SzpiSta.UpgradeSlot

/-!
# From downloads to the flashed image

`http_dl` leaves a file behind, and `upgrade` flashes one.  Between the two
commands only the card is handed over.  So the image that the bootloader is asked
to start is the file as all downloads have left it, with the checksum that the
last of them printed; it is the body of that download exactly if nothing longer
was in the file before.
-/

namespace SzpiSta

namespace FlashedImage

open ExternalCalls ExternalCalls.Program Overwriting TransitionPaths HttpDl

/-- The card as an upgrade finds it.  A file has fewer than 2^32 bytes, and
`fs_stat` reports how many. -/
structure SameCard (card : HttpDl.World) (device : Upgrade.World) : Prop where
  small : ∀ path content, card.files path = some content →
    content.length < UInt32.size
  files : ∀ path, device.files path = (card.files path).map fun content =>
    ⟨⟨.file, UInt32.ofNat content.length⟩, content⟩

/-- The partition begins with the image. -/
def HoldsImage (world : Upgrade.World) (id : UInt8) (image : List UInt8) : Prop :=
  ∀ (index : Nat) (inside : index < image.length),
    world.flash id index = image[index]

/-- The bootloader is asked for the upgrade. -/
def Triggered (trace : Upgrade.Trace) : Prop :=
  ∃ event ∈ trace, Upgrade.MadeByTrigger event.call

/-- A file after downloads. -/
def fileLeft (before : HttpDl.World) (file : CString)
    (downloads : List DownloadCommand) : List UInt8 :=
  layered (before.contentAt file) (downloads.filterMap (DownloadCommand.layerAt file))

section Upgrading

variable {parts : Upgrade.Partitions} {card : HttpDl.World}
variable {device after : Upgrade.World} {command name : CString}
variable {more : List CString} {trace : Upgrade.Trace} {ret : Int}

/-- A card reports the length that its files have. -/
theorem SameCard.covers (same : SameCard card device) (path : CString) :
    Upgrade.ContentCoversSize path device := by
  intro entry found regular
  rw [same.files] at found
  obtain ⟨content, -, rfl⟩ := Option.map_eq_some_iff.mp found
  dsimp only
  rw [UInt32.toNat_ofNat']
  exact Nat.mod_le _ _

/-- The file that is flashed. -/
theorem flashed_file (same : SameCard card device)
    (upgrade : Runs (Upgrade.environment parts)
      (Upgrade.cmdUpgrade parts (command :: name :: more)) device trace ret after)
    (triggered : Triggered trace) :
    HoldsImage after parts.slot0Partition (card.contentAt (savedAt name)) := by
  obtain ⟨performing, rest, _, middle, rfl, runs, ends⟩ := runs_bind_iff.mp upgrade
  obtain ⟨rfl, -, rfl⟩ := runs_done_iff.mp ends
  rw [List.append_nil] at triggered
  have means : Upgrade.TriggerMeansComplete parts (savedAt name) device :=
    Upgrade.triggerMeansComplete_of_zeroMeansComplete fun _ =>
      Upgrade.zeroMeansComplete_of_covers (same.covers (savedAt name))
  obtain ⟨entry, target, fetch, found, fetchRuns, complete⟩ :=
    means _ _ _ runs triggered
  obtain rfl := Upgrade.getUpgradeTarget_eq_slot0 fetchRuns
  rw [same.files] at found
  obtain ⟨content, onCard, rfl⟩ := Option.map_eq_some_iff.mp found
  have isContent : card.contentAt (savedAt name) = content := by
    rw [World.contentAt, onCard]
    rfl
  rw [isContent]
  intro index inside
  have size : (UInt32.ofNat content.length).toNat = content.length :=
    UInt32.toNat_ofNat_of_lt' (same.small _ _ onCard)
  have stored := complete.sameBytes index (by simpa [size] using inside)
  rw [List.getElem?_eq_getElem inside] at stored
  exact (Option.some.inj stored).symm

end Upgrading

section Sessions

variable {sha256 : List UInt8 → Digest} {before card : HttpDl.World}
variable {earlier others : List DownloadCommand} {last : DownloadCommand} {file : CString}

theorem fileLeft_of_session {downloads : List DownloadCommand}
    (session : Path (DownloadStep sha256) before downloads card) :
    card.contentAt file = fileLeft before file downloads :=
  contentAt_of_session session file

/-- Downloads to other files leave this one. -/
theorem fileLeft_elsewhere
    (elsewhere : ∀ other ∈ others, savedAt other.savePath ≠ file)
    {downloads : List DownloadCommand} :
    fileLeft before file (downloads ++ others) = fileLeft before file downloads := by
  have none : others.filterMap (DownloadCommand.layerAt file) = [] := by
    rw [List.filterMap_eq_nil_iff]
    exact fun other member => if_neg (elsewhere other member)
  rw [fileLeft, List.filterMap_append, none, List.append_nil, fileLeft]

theorem fileLeft_last (saved : savedAt last.savePath = file) :
    fileLeft before file (earlier ++ [last]) = layered (before.contentAt file)
      (earlier.filterMap (DownloadCommand.layerAt file) ++ [storedBytes last.trace]) := by
  have layer : last.layerAt file = some (storedBytes last.trace) := if_pos saved
  rw [fileLeft, List.filterMap_append, List.filterMap_cons_some layer,
    List.filterMap_nil]

/-- What the last download to a file stored is on top. -/
theorem fileLeft_eq_iff (saved : savedAt last.savePath = file)
    (elsewhere : ∀ other ∈ others, savedAt other.savePath ≠ file) :
    fileLeft before file (earlier ++ last :: others) = storedBytes last.trace ↔
      (before.contentAt file).length ≤ (storedBytes last.trace).length ∧
        ∀ download ∈ earlier, savedAt download.savePath = file →
          (storedBytes download.trace).length ≤
            (storedBytes last.trace).length := by
  have split : earlier ++ last :: others = earlier ++ [last] ++ others := by simp
  rw [split, fileLeft_elsewhere elsewhere, fileLeft_last saved,
    layered_concat_eq_iff]
  refine and_congr_right fun _ => ?_
  simp only [List.mem_filterMap, DownloadCommand.layerAt, Option.ite_none_right_eq_some,
    Option.some.injEq]
  constructor
  · intro shorter download member isSaved
    exact shorter _ ⟨download, member, isSaved, rfl⟩
  · rintro shorter _ ⟨download, member, isSaved, rfl⟩
    exact shorter download member isSaved

theorem stored_of_full {download : DownloadCommand} {loaded : HttpDl.World}
    (step : DownloadStep sha256 before download loaded)
    (full : ∀ event ∈ download.trace, ¬ WriteFails event) :
    storedBytes download.trace = deliveredBody download.trace := by
  obtain ⟨inner, around⟩ := around_of_step step
  obtain ⟨opening, closing, same, -, -⟩ := around.lines
  rw [around.storedBytes_eq, around.deliveredBody_eq]
  exact around.outcome.storedBytes_eq fun event member =>
    full event (by simp [same, member])

end Sessions

/-- In every session of `http_dl` commands, whatever they meet, and of an
`upgrade` that asks for the new image: the partition begins with what the
downloads to that name have left together, which is the body of the last one, if
its writes were complete, exactly if nothing longer was in the file before. -/
theorem flashed_image_is_last_body_iff {sha256 : List UInt8 → Digest}
    {parts : Upgrade.Partitions} {before card : HttpDl.World}
    {earlier others : List DownloadCommand} {last : DownloadCommand}
    {device after : Upgrade.World} {command name : CString}
    {more : List CString} {trace : Upgrade.Trace} {ret : Int}
    (session : Path (DownloadStep sha256) before (earlier ++ last :: others) card)
    (saved : savedAt last.savePath = savedAt name)
    (elsewhere : ∀ other ∈ others, savedAt other.savePath ≠ savedAt name)
    (same : SameCard card device)
    (upgrade : Runs (Upgrade.environment parts)
      (Upgrade.cmdUpgrade parts (command :: name :: more)) device trace ret after)
    (triggered : Triggered trace) :
    HoldsImage after parts.slot0Partition
        (fileLeft before (savedAt name) (earlier ++ last :: others)) ∧
      ((∀ event ∈ last.trace, ¬ WriteFails event) →
        (fileLeft before (savedAt name) (earlier ++ last :: others) =
            deliveredBody last.trace ↔
          (before.contentAt (savedAt name)).length ≤
              (deliveredBody last.trace).length ∧
            ∀ download ∈ earlier, savedAt download.savePath = savedAt name →
              (storedBytes download.trace).length ≤
                (deliveredBody last.trace).length)) := by
  constructor
  · rw [← fileLeft_of_session session]
    exact flashed_file same upgrade triggered
  · intro full
    obtain ⟨first, -, rest⟩ := path_append_iff.mp session
    obtain ⟨second, step, -⟩ := path_cons_iff.mp rest
    rw [← stored_of_full step full]
    exact fileLeft_eq_iff saved elsewhere

/-- In every such session the partition begins with the file whose checksum the
last download to it has printed, in its only line, if no call of the checksum
failed. -/
theorem flashed_image_has_printed_checksum {sha256 : List UInt8 → Digest}
    {parts : Upgrade.Partitions} {before card : HttpDl.World}
    {earlier others : List DownloadCommand} {last : DownloadCommand}
    {device after : Upgrade.World} {command name : CString}
    {more : List CString} {trace : Upgrade.Trace} {ret : Int}
    (session : Path (DownloadStep sha256) before (earlier ++ last :: others) card)
    (saved : savedAt last.savePath = savedAt name)
    (elsewhere : ∀ other ∈ others, savedAt other.savePath ≠ savedAt name)
    (succeeds : last.ret = 0)
    (noFailure : ∀ event ∈ last.trace, ¬ HashFails event)
    (same : SameCard card device)
    (upgrade : Runs (Upgrade.environment parts)
      (Upgrade.cmdUpgrade parts (command :: name :: more)) device trace ret after)
    (triggered : Triggered trace) :
    HoldsImage after parts.slot0Partition (card.contentAt (savedAt name)) ∧
      last.trace.filterMap Event.printed =
        [sha256Line (sha256 (card.contentAt (savedAt name)))
          (savedAt name)] := by
  refine ⟨flashed_file same upgrade triggered, ?_⟩
  obtain ⟨first, -, rest⟩ := path_append_iff.mp session
  obtain ⟨second, step, later⟩ := path_cons_iff.mp rest
  obtain ⟨inner, around⟩ := around_of_step step
  have stays : card.contentAt (savedAt name) =
      second.contentAt (savedAt name) := by
    calc card.contentAt (savedAt name)
        = fileLeft second (savedAt name) ([] ++ others) :=
          fileLeft_of_session later
      _ = fileLeft second (savedAt name) [] := fileLeft_elsewhere elsewhere
      _ = second.contentAt (savedAt name) := rfl
  rw [around.printed_eq succeeds noFailure, saved, stays]

section TwoDownloads

/-- The command whose download stores the body and prints its checksum. -/
def downloadOf (fragment : Fragment) : DownloadCommand where
  fuel := 2
  command := []
  hostname := []
  port := []
  path := []
  savePath := []
  more := []
  trace := [⟨.shellPrint (cString "download ..."), ()⟩,
    ⟨.shellPrint (cString "server: " ++ [] ++ cString ":" ++ []), ()⟩,
    ⟨.shellPrint (cString "URL Path: " ++ []), ()⟩,
    ⟨.shellPrint (cString "Save Path: " ++ []), ()⟩] ++
      (fragment.checked ++ [⟨.shellPrint (cString "Download Success!"), ()⟩])
  ret := 0

theorem downloadOf_runs {fragment : Fragment} {before : HttpDl.World}
    (shorter : (before.contentAt (savedAt [])).length ≤ fragment.body.length) :
    ∃ card, DownloadStep Sha256.hash before (downloadOf fragment) card := by
  obtain ⟨card, runs⟩ : ∃ card, Runs (environment Sha256.hash)
      (httpDlFile 2 [] [] [] []) before fragment.checked 0 card :=
    ⟨_, fragment.checked_runs shorter⟩
  refine ⟨card, ?_⟩
  apply Runs.call
  · exact rfl
  apply Runs.call
  · exact rfl
  apply Runs.call
  · exact rfl
  apply Runs.call
  · exact rfl
  apply runs.bind
  apply Runs.call
  · exact rfl
  exact .done _ _

/-- A body of one other byte. -/
def otherBody : Fragment := ⟨[9], by decide, by decide⟩

/-- Two downloads to the same name. -/
def twoDownloads : List DownloadCommand :=
  [downloadOf otherBody, downloadOf shortBody]

theorem twoDownloads_session : ∃ card,
    Path (DownloadStep Sha256.hash) (cardWith []) twoDownloads card := by
  obtain ⟨middle, first⟩ : ∃ middle, DownloadStep Sha256.hash (cardWith [])
      (downloadOf otherBody) middle := downloadOf_runs (by decide)
  have left : middle.contentAt (savedAt []) = [9] :=
    fileLeft_of_session (path_singleton_iff.mpr first)
  obtain ⟨card, second⟩ : ∃ card, DownloadStep Sha256.hash middle
      (downloadOf shortBody) card := downloadOf_runs (by rw [left]; decide)
  exact ⟨card, .cons first (path_singleton_iff.mpr second)⟩

/-- The device that holds a card, with slot 1 running. -/
def deviceWith (card : HttpDl.World) : Upgrade.World where
  running := .slot1
  files := fun path => (card.files path).map fun content =>
    ⟨⟨.file, UInt32.ofNat content.length⟩, content⟩
  file := none
  flash := fun _ _ => 0

theorem sameCard_deviceWith {card : HttpDl.World}
    (session : Path (DownloadStep Sha256.hash) (cardWith []) twoDownloads card) :
    SameCard card (deviceWith card) := by
  refine ⟨fun path content found => ?_, fun _ => rfl⟩
  have left : content = fileLeft (cardWith []) path twoDownloads := by
    rw [← fileLeft_of_session session, World.contentAt, found]
    rfl
  have short : (fileLeft (cardWith []) path twoDownloads).length ≤ 1 := by
    rw [fileLeft, length_layered_le_iff]
    refine ⟨Nat.zero_le 1, fun layer member => ?_⟩
    simp only [List.mem_filterMap, DownloadCommand.layerAt,
      Option.ite_none_right_eq_some, Option.some.injEq] at member
    obtain ⟨download, isOne, -, rfl⟩ := member
    rcases List.mem_pair.mp isOne with rfl | rfl <;> decide
  rw [left]
  exact Nat.lt_of_le_of_lt short (by decide)

theorem oneByteFile_runs {device : Upgrade.World}
    (found : device.files (savedAt []) = some ⟨⟨.file, 1⟩, [3]⟩) :
    ∃ trace after, Runs (Upgrade.environment Upgrade.sampleParts)
      (Upgrade.writeOtaFileToPartition (savedAt []) 1) device trace 0 after := by
  let opened : Upgrade.World := { device with file := some ([3], 0) }
  let erased : Upgrade.World := opened.erasing 1 (Upgrade.eraseSize 1).toNat
  have reads : (Upgrade.environment Upgrade.sampleParts).answers erased
      (.fsRead (min Upgrade.chunkSize (1 - 0)))
      (ReadAnswer.data [3] (by decide))
      { erased with file := some ([3], 1) } :=
    ⟨[3], 0, rfl, ⟨rfl, by simp⟩, rfl⟩
  have copies : ∃ trace after, Runs (Upgrade.environment Upgrade.sampleParts)
      (Upgrade.copyFile 1 1) erased trace none after :=
    ⟨_, _, .loop_again
      (.call _ reads (.call (0 : Int) (Upgrade.write_storing Upgrade.sampleParts 1)
        (.done _ _)))
      (.loop_leave (.done _ _))⟩
  obtain ⟨copying, copied, copyRuns⟩ := copies
  obtain ⟨closing, closed, closeRuns⟩ : ∃ trace after,
      Runs (Upgrade.environment Upgrade.sampleParts) (Upgrade.cleanup 1 true 0) copied
        trace 0 after := Upgrade.cleanup_runs Upgrade.sampleParts 1 0
  exact ⟨_, closed, .call ((0 : Int), ⟨.file, 1⟩)
    ⟨rfl, fun _ => by rw [found]; rfl⟩
    (.call (0 : Int) rfl
      (.call (0 : Int) (⟨_, found, rfl⟩ : ∃ entry,
          device.files (savedAt []) = some entry ∧
            opened = { device with file := some (entry.content, 0) })
        (.call (0 : Int) (Upgrade.erase_erasing Upgrade.sampleParts 1 _)
          (.call true rfl (copyRuns.bind closeRuns)))))⟩

/-- A file of one byte is flashed and the upgrade asked for. -/
theorem oneByteUpgrade_runs {device : Upgrade.World}
    (found : device.files (savedAt []) = some ⟨⟨.file, 1⟩, [3]⟩) :
    ∃ trace ret after, Runs (Upgrade.environment Upgrade.sampleParts)
      (Upgrade.cmdUpgrade Upgrade.sampleParts [[], []]) device trace ret after ∧
        Triggered trace := by
  obtain ⟨copying, copied, runs⟩ := oneByteFile_runs found
  have triggers : Runs (Upgrade.environment Upgrade.sampleParts) Upgrade.triggerUpgrade
      copied [⟨.bootRequestUpgrade, (0 : Int)⟩, ⟨.kMsleep 100, ()⟩,
        ⟨.sysReboot, ()⟩] () copied := by
    apply Runs.call
    · exact rfl
    apply Runs.call
    · exact rfl
    apply Runs.call
    · exact rfl
    exact .done _ _
  have performs : Runs (Upgrade.environment Upgrade.sampleParts)
      (Upgrade.performOtaUpgradeFromFile Upgrade.sampleParts (savedAt [])) device
      (⟨.bootFetchActiveSlot, Upgrade.sampleParts.id device.running⟩ ::
        (copying ++ [⟨.bootRequestUpgrade, (0 : Int)⟩, ⟨.kMsleep 100, ()⟩,
          ⟨.sysReboot, ()⟩])) () copied := by
    unfold Upgrade.performOtaUpgradeFromFile
    rw [Upgrade.getUpgradeTargetPartitionId_eq]
    exact .call _ ⟨rfl, rfl⟩ (runs.bind triggers)
  exact ⟨_, 0, copied, performs.bind (.done _ _),
    ⟨.sysReboot, ()⟩, by simp, trivial⟩

theorem twoDownloads_found {card : HttpDl.World}
    (session : Path (DownloadStep Sha256.hash) (cardWith []) twoDownloads card) :
    (deviceWith card).files (savedAt []) = some ⟨⟨.file, 1⟩, [3]⟩ := by
  have left : card.contentAt (savedAt []) = [3] := fileLeft_of_session session
  obtain ⟨content, onCard, rfl⟩ :
      ∃ content, card.files (savedAt []) = some content ∧ content = [3] := by
    unfold World.contentAt at left
    cases onCard : card.files (savedAt []) with
    | none =>
        rw [onCard] at left
        cases left
    | some content =>
        rw [onCard] at left
        exact ⟨content, rfl, left⟩
  simp [deviceWith, onCard]

theorem downloadOf_noFailure (fragment : Fragment) :
    (∀ event ∈ (downloadOf fragment).trace, ¬ WriteFails event) ∧
      ∀ event ∈ (downloadOf fragment).trace, ¬ HashFails event := by
  constructor
  · simp [downloadOf, Fragment.checked, Fragment.request, Fragment.delivering,
      Fragment.hashing, WriteFails]
  · simp [downloadOf, Fragment.checked, Fragment.request, Fragment.delivering,
      Fragment.hashing, HashFails, saveFlags]

/-- Of two downloads to one name the second is flashed. -/
theorem second_body_is_flashed : ∃ card trace ret after,
    Path (DownloadStep Sha256.hash) (cardWith []) twoDownloads card ∧
      Runs (Upgrade.environment Upgrade.sampleParts)
        (Upgrade.cmdUpgrade Upgrade.sampleParts [[], []]) (deviceWith card) trace
        ret after ∧
      HoldsImage after 1 [3] := by
  obtain ⟨card, session⟩ := twoDownloads_session
  obtain ⟨trace, ret, after, upgrade, triggered⟩ :=
    oneByteUpgrade_runs (twoDownloads_found session)
  have split : Path (DownloadStep Sha256.hash) (cardWith [])
      ([downloadOf otherBody] ++ downloadOf shortBody :: []) card := session
  obtain ⟨holds, isBody⟩ := flashed_image_is_last_body_iff split rfl
    (List.forall_mem_nil _) (sameCard_deviceWith session) upgrade triggered
  have nothingLonger := (isBody (downloadOf_noFailure shortBody).1).mpr
    ⟨by decide, by decide⟩
  rw [nothingLonger] at holds
  exact ⟨card, trace, ret, after, session, upgrade, holds⟩

/-- Its checksum was printed. -/
theorem second_checksum_is_printed : ∃ card trace ret after,
    Path (DownloadStep Sha256.hash) (cardWith []) twoDownloads card ∧
      Runs (Upgrade.environment Upgrade.sampleParts)
        (Upgrade.cmdUpgrade Upgrade.sampleParts [[], []]) (deviceWith card) trace
        ret after ∧
      HoldsImage after 1 (card.contentAt (savedAt [])) ∧
      (downloadOf shortBody).trace.filterMap Event.printed =
        [sha256Line (Sha256.hash (card.contentAt (savedAt []))) (savedAt [])] := by
  obtain ⟨card, session⟩ := twoDownloads_session
  obtain ⟨trace, ret, after, upgrade, triggered⟩ :=
    oneByteUpgrade_runs (twoDownloads_found session)
  have split : Path (DownloadStep Sha256.hash) (cardWith [])
      ([downloadOf otherBody] ++ downloadOf shortBody :: []) card := session
  have flashed := flashed_image_has_printed_checksum split rfl
    (List.forall_mem_nil _) rfl (downloadOf_noFailure shortBody).2
    (sameCard_deviceWith session) upgrade triggered
  exact ⟨card, trace, ret, after, session, upgrade, flashed⟩

end TwoDownloads

end FlashedImage

end SzpiSta
