import Mathlib.Data.List.TakeDrop
import SzpiSta.HttpDlHash
import SzpiSta.UpgradeSlot

/-!
# Which file a command works on

Both `http_dl` and `upgrade` put the root path and the name they are given into
a buffer of 128 bytes.  Every file they touch is the one in that buffer, so they
work on the named file exactly if the name has at most 122 bytes; longer names
are cut off, and those with the same first 122 bytes meet in one file.
-/

namespace SzpiSta

open ExternalCalls ExternalCalls.Program

/-- The file a user names. -/
def namedFile (name : CString) : CString :=
  fatfsGetRootPath ++ cString "/" ++ name

/-- The longest name that fits the buffer with the root path, the separator and
the terminator. -/
def longestName : Nat := 122

section Names

variable {name first second : CString}

theorem snprintfFullPath_eq :
    snprintfFullPath fatfsGetRootPath name = namedFile (name.take longestName) := by
  have front : (fatfsGetRootPath ++ cString "/").length = 5 := by decide
  rw [snprintfFullPath, namedFile, List.take_append, front,
    List.take_of_length_le (by rw [front]; decide)]
  rfl

theorem namedFile_inj : namedFile first = namedFile second ↔ first = second :=
  List.append_right_inj _

theorem snprintfFullPath_eq_namedFile_iff :
    snprintfFullPath fatfsGetRootPath name = namedFile name ↔
      name.length ≤ longestName := by
  rw [snprintfFullPath_eq, namedFile_inj, List.take_eq_self_iff]

end Names

/-- Some answers lead the program to a call on the file. -/
def Touches {Call α : Type} {Answer : Call → Type}
    (filePath : Call → Option CString) (program : Program Call Answer α)
    (file : CString) : Prop :=
  ¬ Issues (fun call => filePath call ≠ some file) program

/-- The call is on this file, if it is on any. -/
def OnlyOn {Call : Type} (filePath : Call → Option CString) (file : CString)
    (call : Call) : Prop :=
  filePath call = none ∨ filePath call = some file

theorem touches_iff_of_issues {Call α : Type} {Answer : Call → Type}
    {filePath : Call → Option CString} {program : Program Call Answer α}
    {file path : CString} (only : Issues (OnlyOn filePath path) program)
    (touches : Touches filePath program path) :
    Touches filePath program file ↔ file = path := by
  constructor
  · intro touched
    by_contra different
    refine touched (only.mono fun call onlyOn isFile => ?_)
    rcases onlyOn with none | isPath
    · cases none.symm.trans isFile
    · exact different (Option.some.inj (isFile.symm.trans isPath))
  · rintro rfl
    exact touches

namespace HttpDl

/-- The file a call opens. -/
def Call.filePath : Call → Option CString
  | .fsOpen path _ => some path
  | _ => none

section Calls

variable {fuel : Nat} {hostname port path savePath fullPath : CString}
variable {ctx : DownloadCtx}

theorem printProgress_on {finalData : HttpFinalCall} :
    Issues (OnlyOn Call.filePath fullPath) (printProgress finalData ctx) := by
  unfold printProgress
  refine Issues.bind (issues_request.mpr (.inl rfl)) fun now => ?_
  split
  · refine Issues.bind (issues_request.mpr (.inl rfl)) fun _ => ?_
    split
    · exact Issues.bind (issues_request.mpr (.inl rfl)) fun _ => issues_pure
    · exact issues_pure
  · exact issues_pure

theorem deliverReports_on {reports : List Report} :
    Issues (OnlyOn Call.filePath fullPath) (deliverReports reports ctx) := by
  have prints {finalData : HttpFinalCall} (ctx : DownloadCtx) :
      Issues (OnlyOn Call.filePath fullPath)
        (printProgress finalData ctx >>= fun ctx => pure ((0 : Int), ctx)) :=
    printProgress_on.bind fun _ => issues_pure
  induction reports generalizing ctx with
  | nil => exact issues_pure
  | cons report reports ih =>
      unfold deliverReports
      apply Issues.bind
      · unfold httpDlResponseCb
        dsimp only
        split
        · apply Issues.bind (issues_request.mpr (.inl rfl))
          rintro (⟨code, negative⟩ | ⟨written, fits⟩)
          · exact issues_pure
          · exact prints _
        · exact prints _
      · intro result
        dsimp only
        split
        · exact issues_pure
        · exact ih

theorem httpDlGetReq_on {req : HttpRequest} :
    Issues (OnlyOn Call.filePath fullPath)
      (httpDlGetReq req hostname port ctx) := by
  have connects {sock : Int} : Issues (OnlyOn Call.filePath fullPath)
      (httpDlSocketConnect hostname port sock) := by
    unfold httpDlSocketConnect httpDlSocketInit
    apply Issues.bind
    · refine Issues.bind (issues_request.mpr (.inl rfl)) fun _ => ?_
      dsimp only
      split
      · exact issues_pure
      · exact Issues.bind (issues_request.mpr (.inl rfl)) fun _ => issues_pure
    · intro result
      dsimp only
      split
      · exact issues_pure
      refine Issues.bind (issues_request.mpr (.inl rfl)) fun _ => ?_
      split
      · exact ⟨.inl rfl, fun _ => ⟨.inl rfl, fun _ => trivial⟩⟩
      · exact issues_pure
  unfold httpDlGetReq
  apply connects.bind
  intro result
  dsimp only
  split
  · exact issues_pure
  · apply Issues.bind
    · refine Issues.bind (issues_request.mpr (.inl rfl)) fun _ => ?_
      exact deliverReports_on.bind fun _ => issues_pure
    · exact fun _ => Issues.bind (issues_request.mpr (.inl rfl)) fun _ =>
        issues_pure

theorem calculateFileSha256_on {outputSha256 : Digest} :
    Issues (OnlyOn Call.filePath fullPath)
      (calculateFileSha256 fuel fullPath outputSha256) := by
  have aborts {rc : Int} {output : Digest} :
      Issues (OnlyOn Call.filePath fullPath) (abortHash rc output) :=
    ⟨.inl rfl, fun _ => ⟨.inl rfl, fun _ => trivial⟩⟩
  have reads : Issues (OnlyOn Call.filePath fullPath)
      (loop hashChunk fuel ()) := by
    refine issues_loop (fun _ => hashChunk_issues.mono ?_) fuel ()
    intro call reads
    cases call <;> first | exact .inl rfl | exact reads.elim
  unfold calculateFileSha256
  refine Issues.bind (issues_request.mpr (.inl rfl)) fun status => ?_
  split
  · exact issues_pure
  refine Issues.bind (issues_request.mpr (.inr rfl)) fun rc => ?_
  split
  · exact issues_pure
  refine Issues.bind (issues_request.mpr (.inl rfl)) fun status => ?_
  split
  · exact Issues.bind (issues_request.mpr (.inl rfl)) fun _ => issues_pure
  unfold hashOpenedFile
  apply reads.bind
  rintro (bytesRead | _)
  · dsimp only
    split
    · exact aborts
    refine Issues.bind (issues_request.mpr (.inl rfl)) fun (status, hash) => ?_
    dsimp only
    split
    · exact aborts
    · exact Issues.bind (issues_request.mpr (.inl rfl)) fun _ => issues_pure
  · exact aborts

/-- All that a download touches is the path it puts together. -/
theorem httpDlFile_on :
    Issues (OnlyOn Call.filePath (snprintfFullPath fatfsGetRootPath savePath))
      (httpDlFile fuel hostname port path savePath) := by
  unfold httpDlFile
  refine Issues.bind (issues_request.mpr (.inr rfl)) fun ret => ?_
  split
  · exact issues_pure
  refine httpDlGetReq_on.bind fun _ => ?_
  refine Issues.bind (issues_request.mpr (.inl rfl)) fun _ => ?_
  refine calculateFileSha256_on.bind fun _ => ?_
  exact Issues.bind (issues_request.mpr (.inl rfl)) fun _ => issues_pure

/-- The path an `http_dl` command with these arguments works on. -/
theorem cmdHttpDl_touches_iff {command file : CString} {more : List CString} :
    Touches Call.filePath
        (cmdHttpDl fuel (command :: hostname :: port :: path :: savePath :: more))
        file ↔
      file = snprintfFullPath fatfsGetRootPath savePath := by
  apply touches_iff_of_issues
  · refine ⟨.inl rfl, fun _ => ⟨.inl rfl, fun _ => ⟨.inl rfl, fun _ =>
      ⟨.inl rfl, fun _ => ?_⟩⟩⟩⟩
    refine httpDlFile_on.bind fun ret => ?_
    split
    · exact Issues.bind (issues_request.mpr (.inl rfl)) fun _ => issues_pure
    · exact Issues.bind (issues_request.mpr (.inl rfl)) fun _ => issues_pure
  · -- The file is opened right after the four lines printed first.
    intro issues
    exact ((((issues.2 ()).2 ()).2 ()).2 ()).1 rfl

end Calls

end HttpDl

namespace Upgrade

/-- The file a call looks up or opens. -/
def Call.filePath : Call → Option CString
  | .fsStat path => some path
  | .fsOpen path _ => some path
  | _ => none

section Calls

variable {parts : Partitions} {id : UInt8} {fullPath : CString}

theorem onlyOn_of_madeAfterOpening {call : Call}
    (made : MadeAfterOpening id call) : OnlyOn Call.filePath fullPath call := by
  cases call <;> first | exact .inl rfl | exact made.elim

theorem onlyOn_of_madeByTrigger {call : Call} (made : MadeByTrigger call) :
    OnlyOn Call.filePath fullPath call := by
  cases call <;> first | exact .inl rfl | exact made.elim

theorem writeOta_on :
    Issues (OnlyOn Call.filePath fullPath)
      (writeOtaFileToPartition fullPath id) := by
  unfold writeOtaFileToPartition
  refine Issues.bind (issues_request.mpr (.inr rfl)) fun (rc, fileStat) => ?_
  dsimp only
  split
  · exact issues_pure
  split
  · exact issues_pure
  refine Issues.bind (issues_request.mpr (.inl rfl)) fun rc => ?_
  split
  · exact issues_pure
  refine Issues.bind (issues_request.mpr (.inr rfl)) fun rc => ?_
  split
  · exact Issues.bind (issues_request.mpr (.inl rfl)) fun _ => issues_pure
  · exact writeOpenedFile_issues.mono fun _ => onlyOn_of_madeAfterOpening

theorem performOta_on :
    Issues (OnlyOn Call.filePath fullPath)
      (performOtaUpgradeFromFile parts fullPath) := by
  unfold performOtaUpgradeFromFile
  rw [getUpgradeTargetPartitionId_eq]
  refine Issues.bind ⟨.inl rfl, fun _ => trivial⟩ fun target => ?_
  refine writeOta_on.bind fun rc => ?_
  split
  · exact triggerUpgrade_issues.mono fun _ => onlyOn_of_madeByTrigger
  · exact issues_pure

/-- The path an `upgrade` command with this argument works on. -/
theorem cmdUpgrade_touches_iff {command imagePath file : CString}
    {more : List CString} :
    Touches Call.filePath (cmdUpgrade parts (command :: imagePath :: more))
        file ↔
      file = snprintfFullPath fatfsGetRootPath imagePath := by
  apply touches_iff_of_issues
  · exact performOta_on.bind fun _ => issues_pure
  · -- The file is looked up right after the active slot.
    intro issues
    unfold cmdUpgrade performOtaUpgradeFromFile at issues
    rw [getUpgradeTargetPartitionId_eq] at issues
    exact (issues.2 (0 : UInt8)).1 rfl

end Calls

end Upgrade

/-- Given this name, one of the two commands works on the file. -/
def WorksOn (parts : Upgrade.Partitions) (name file : CString) : Prop :=
  (∃ fuel command hostname port path more,
      Touches HttpDl.Call.filePath (HttpDl.cmdHttpDl fuel
        (command :: hostname :: port :: path :: name :: more)) file) ∨
    ∃ command more, Touches Upgrade.Call.filePath
      (Upgrade.cmdUpgrade parts (command :: name :: more)) file

section Commands

variable {parts : Upgrade.Partitions} {name first second file : CString}

theorem worksOn_iff :
    WorksOn parts name file ↔
      file = snprintfFullPath fatfsGetRootPath name := by
  constructor
  · rintro (⟨fuel, command, hostname, port, path, more, touches⟩ |
      ⟨command, more, touches⟩)
    · exact HttpDl.cmdHttpDl_touches_iff.mp touches
    · exact Upgrade.cmdUpgrade_touches_iff.mp touches
  · intro same
    exact .inr ⟨[], [], Upgrade.cmdUpgrade_touches_iff.mpr same⟩

/-- Two names meet in one file exactly if their first 122 bytes agree. -/
theorem meet_iff :
    (∃ file, WorksOn parts first file ∧ WorksOn parts second file) ↔
      first.take longestName = second.take longestName := by
  simp only [worksOn_iff, snprintfFullPath_eq]
  constructor
  · rintro ⟨file, rfl, same⟩
    exact namedFile_inj.mp same
  · intro same
    exact ⟨_, rfl, by rw [same]⟩

theorem worksOn_named_iff :
    (∀ file, WorksOn parts name file → file = namedFile name) ↔
      name.length ≤ longestName := by
  simp only [worksOn_iff, forall_eq]
  exact snprintfFullPath_eq_namedFile_iff

/-- Two names each lead to the file they name, and different ones to different
files, exactly if both fit the buffer. -/
theorem names_lead_to_their_files_iff (parts : Upgrade.Partitions)
    (first second : CString) :
    ((∀ file, WorksOn parts first file → file = namedFile first) ∧
        (∀ file, WorksOn parts second file → file = namedFile second) ∧
        (first ≠ second → ∀ file, WorksOn parts first file →
          ¬ WorksOn parts second file)) ↔
      first.length ≤ longestName ∧ second.length ≤ longestName := by
  rw [worksOn_named_iff, worksOn_named_iff]
  constructor
  · exact fun ⟨firstFits, secondFits, _⟩ => ⟨firstFits, secondFits⟩
  · rintro ⟨firstFits, secondFits⟩
    refine ⟨firstFits, secondFits, fun different file works worksToo => ?_⟩
    have same := meet_iff.mp ⟨file, works, worksToo⟩
    rw [List.take_of_length_le firstFits,
      List.take_of_length_le secondFits] at same
    exact different same

end Commands

/-- A name of 123 bytes that ends in this one. -/
def longName (last : UInt8) : CString := List.replicate longestName 97 ++ [last]

/-- Two names that differ in byte 123 only: a download to the one overwrites,
and an upgrade from the one flashes, the file of the other. -/
theorem long_names_meet :
    longName 98 ≠ longName 99 ∧
      ∃ file, WorksOn Upgrade.sampleParts (longName 98) file ∧
        WorksOn Upgrade.sampleParts (longName 99) file ∧
        file ≠ namedFile (longName 98) := by
  have cut (last : UInt8) : (longName last).take longestName =
      List.replicate longestName 97 :=
    List.take_left' List.length_replicate
  refine ⟨by simp [longName], _, worksOn_iff.mpr rfl, ?_, ?_⟩
  · rw [worksOn_iff, snprintfFullPath_eq, snprintfFullPath_eq, cut, cut]
  · intro same
    have fits := snprintfFullPath_eq_namedFile_iff.mp same
    rw [longName, List.length_append, List.length_replicate] at fits
    exact Nat.not_succ_le_self _ fits

end SzpiSta
