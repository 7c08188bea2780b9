import SzpiSta.HttpDlResources
import SzpiSta.SdSpeed
import SzpiSta.Upgrade

/-!
# What the file commands release on their ways out

An upgrade holds the flash area, the file and its read buffer; the speed test a
buffer and one file at a time; the checksum is in the module on downloads.  All
three release on every way out exactly what they acquired.
-/

namespace SzpiSta

open ExternalCalls ExternalCalls.Program HeldResources

namespace Upgrade

inductive Resource where
  | flashArea (id : UInt8)
  | file
  | readBuf
  deriving DecidableEq

@[simp]
def Event.uses : Event Call.Answer → List (Use Resource)
  | ⟨.flashAreaOpen id, rc⟩ => if rc < 0 then [] else [.acquire (.flashArea id)]
  | ⟨.fsOpen _ _, rc⟩ => if rc < 0 then [] else [.acquire .file]
  | ⟨.flashAreaErase id _ _, _⟩ => [.use (.flashArea id)]
  | ⟨.kMalloc _, readBuf⟩ => if readBuf then [.acquire .readBuf] else []
  | ⟨.fsRead _, _⟩ => [.use .file, .use .readBuf]
  | ⟨.flashAreaWrite id _ _, _⟩ => [.use (.flashArea id), .use .readBuf]
  | ⟨.kFree, _⟩ => [.release .readBuf]
  | ⟨.fsClose, _⟩ => [.release .file]
  | ⟨.flashAreaClose id, _⟩ => [.release (.flashArea id)]
  | _ => []

section Exits

variable {id : UInt8} {fileSize writeOffset : UInt32} {rc : Int}
variable {filePath : CString}

theorem copyChunk_accounts :
    Accounts Event.uses
      (fun _ left => left = [.readBuf, .file, .flashArea id])
      (copyChunk id fileSize writeOffset) [.readBuf, .file, .flashArea id] := by
  unfold copyChunk
  split
  case isFalse => exact rfl
  case isTrue =>
  apply accounts_request_bind
  intro answer
  refine ⟨[.readBuf, .file, .flashArea id], by simp, ?_⟩
  rcases answer with ⟨code, negative⟩ | ⟨bytes, fits⟩
  · exact rfl
  dsimp only
  split
  · exact rfl
  apply accounts_request_bind
  intro rc
  refine ⟨[.readBuf, .file, .flashArea id], by simp, ?_⟩
  split <;> exact rfl

theorem cleanup_accounts (readBuf : Bool) :
    Accounts Event.uses (fun _ left => left = []) (cleanup id readBuf rc)
      ((if readBuf then [.readBuf] else []) ++ [.file, .flashArea id]) := by
  have closing : Accounts Event.uses (fun _ left => left = [])
      (cleanup id false rc) [.file, .flashArea id] := by
    refine accounts_request_bind fun _ => ⟨[.flashArea id], ?_, ?_⟩
    · simp
    · exact accounts_request_bind fun _ => ⟨[], by simp, rfl⟩
  cases readBuf with
  | false => exact closing
  | true =>
      refine accounts_request_bind fun _ => ⟨[.file, .flashArea id], ?_, closing⟩
      simp

theorem writeOpenedFile_accounts :
    Accounts Event.uses (fun _ left => left = [])
      (writeOpenedFile id fileSize) [.file, .flashArea id] := by
  unfold writeOpenedFile
  apply accounts_request_bind
  intro eraseRc
  refine ⟨[.file, .flashArea id], by simp, ?_⟩
  split
  · exact cleanup_accounts false
  apply accounts_request_bind
  intro (readBuf : Bool)
  cases readBuf with
  | false =>
      refine ⟨[.file, .flashArea id], by simp, ?_⟩
      rw [if_pos (by decide)]
      exact cleanup_accounts false
  | true =>
      refine ⟨[.readBuf, .file, .flashArea id], by simp, ?_⟩
      rw [if_neg (by decide)]
      apply (accounts_loop (fun _ => copyChunk_accounts) _ _).bind
      rintro (_ | rc) _ rfl <;> exact cleanup_accounts true

theorem writeOta_accounts :
    Accounts Event.uses (fun _ left => left = [])
      (writeOtaFileToPartition filePath id) [] := by
  unfold writeOtaFileToPartition
  apply accounts_other_bind (fun _ => rfl)
  rintro ⟨statRc, fileStat⟩
  dsimp only
  split
  · exact rfl
  split
  · exact rfl
  apply accounts_request_bind
  intro (areaRc : Int)
  by_cases noArea : areaRc < 0
  · refine ⟨[], by simp [noArea], ?_⟩
    rw [if_pos noArea]
    exact rfl
  refine ⟨[.flashArea id], by simp [noArea], ?_⟩
  rw [if_neg noArea]
  apply accounts_request_bind
  intro (openRc : Int)
  by_cases noFile : openRc < 0
  · refine ⟨[.flashArea id], by simp [noFile], ?_⟩
    rw [if_pos noFile]
    exact accounts_request_bind fun _ => ⟨[], by simp, rfl⟩
  · refine ⟨[.file, .flashArea id], by simp [noFile], ?_⟩
    rw [if_neg noFile]
    exact writeOpenedFile_accounts

end Exits

end Upgrade

namespace SdSpeed

inductive Resource where
  | buf
  | file
  deriving DecidableEq

@[simp]
def Event.uses : Event Call.Answer → List (Use Resource)
  | ⟨.kMalloc _, buf⟩ => if buf then [.acquire .buf] else []
  | ⟨.fsOpen _ _, ret⟩ => if ret < 0 then [] else [.acquire .file]
  | ⟨.fsWrite _, _⟩ => [.use .file, .use .buf]
  | ⟨.fsSync, _⟩ => [.use .file]
  | ⟨.fsRead _, _⟩ => [.use .file, .use .buf]
  | ⟨.fsClose, _⟩ => [.release .file]
  | ⟨.kFree, _⟩ => [.release .buf]
  | _ => []

section Exits

variable {fuel : Nat} {filePath : CString} {bufSize total done : UInt32}
variable {argv : List CString}

theorem writeTurn_accounts :
    Accounts Event.uses (fun _ left => left = [.file, .buf])
      (writeTurn bufSize total done) [.file, .buf] := by
  unfold writeTurn
  split
  case isFalse => exact rfl
  case isTrue =>
  apply accounts_request_bind
  intro answer
  refine ⟨[.file, .buf], by simp, ?_⟩
  cases answer <;> exact rfl

theorem readTurn_accounts :
    Accounts Event.uses (fun _ left => left = [.file, .buf])
      (readTurn bufSize total done) [.file, .buf] := by
  unfold readTurn
  split
  case isFalse => exact rfl
  case isTrue =>
  apply accounts_request_bind
  intro answer
  refine ⟨[.file, .buf], by simp, ?_⟩
  rcases answer with ⟨ret, negative⟩ | ⟨bytes, fits⟩
  · exact rfl
  · dsimp only
    split <;> exact rfl

/-- Reporting a failed loop, with file and buffer given back. -/
theorem closing_accounts {ret : Int} {text : CString} :
    Accounts Event.uses (fun _ left => left = [])
      (ask (.shellError text) >>= fun _ => ask .fsClose >>= fun _ =>
        ask .kFree >>= fun _ => pure ret) [.file, .buf] := by
  apply accounts_other_bind (fun _ => rfl)
  intro _
  refine accounts_request_bind fun _ => ⟨[.buf], by simp, ?_⟩
  exact accounts_request_bind fun _ => ⟨[], by simp, rfl⟩

/-- A failed open, with the buffer given back. -/
theorem freeing_accounts {ret : Int} {text : CString} :
    Accounts Event.uses (fun _ left => left = [])
      (ask (.shellError text) >>= fun _ => ask .kFree >>= fun _ => pure ret)
      [.buf] := by
  apply accounts_other_bind (fun _ => rfl)
  intro _
  exact accounts_request_bind fun _ => ⟨[], by simp, rfl⟩

theorem readTest_accounts :
    Accounts Event.uses (fun _ left => left = [])
      (readTest fuel filePath bufSize total) [.buf] := by
  unfold readTest
  apply accounts_request_bind
  intro (ret : Int)
  by_cases refused : ret < 0
  · refine ⟨[.buf], by simp [refused], ?_⟩
    rw [if_pos refused]
    exact freeing_accounts
  refine ⟨[.file, .buf], by simp [refused], ?_⟩
  rw [if_neg refused]
  apply accounts_other_bind (fun _ => rfl)
  intro startTime
  apply (accounts_loop (fun _ => readTurn_accounts) fuel 0).bind
  rintro (ret | bytesRead) _ rfl
  · exact closing_accounts
  · apply accounts_other_bind (fun _ => rfl)
    intro endTime
    refine accounts_request_bind fun _ => ⟨[.buf], by simp, ?_⟩
    apply accounts_other_bind (fun _ => rfl)
    intro _
    apply accounts_other_bind (fun _ => rfl)
    intro _
    refine accounts_request_bind fun _ => ⟨[], by simp, ?_⟩
    exact accounts_other_bind (fun _ => rfl) fun _ => rfl

theorem writeTest_accounts :
    Accounts Event.uses (fun _ left => left = [])
      (writeTest fuel filePath bufSize total) [.buf] := by
  unfold writeTest
  apply accounts_request_bind
  intro (ret : Int)
  by_cases refused : ret < 0
  · refine ⟨[.buf], by simp [refused], ?_⟩
    rw [if_pos refused]
    exact freeing_accounts
  refine ⟨[.file, .buf], by simp [refused], ?_⟩
  rw [if_neg refused]
  apply accounts_other_bind (fun _ => rfl)
  intro startTime
  apply (accounts_loop (fun _ => writeTurn_accounts) fuel 0).bind
  rintro (ret | bytesWritten) _ rfl
  · exact closing_accounts
  · refine accounts_request_bind fun _ => ⟨[.file, .buf], ?_, ?_⟩
    · simp
    apply accounts_other_bind (fun _ => rfl)
    intro endTime
    refine accounts_request_bind fun _ => ⟨[.buf], by simp, ?_⟩
    apply accounts_other_bind (fun _ => rfl)
    intro _
    exact readTest_accounts

theorem cmdSdSpeed_accounts :
    Accounts Event.uses (fun _ left => left = []) (cmdSdSpeed fuel argv) [] := by
  unfold cmdSdSpeed
  dsimp only
  split
  · exact accounts_other_bind (fun _ => rfl) fun _ => rfl
  apply accounts_request_bind
  intro (buf : Bool)
  cases buf with
  | false =>
      refine ⟨[], by simp, ?_⟩
      exact accounts_other_bind (fun _ => rfl) fun _ => rfl
  | true =>
      refine ⟨[.buf], by simp, ?_⟩
      apply accounts_other_bind (fun _ => rfl)
      intro _
      exact writeTest_accounts

end Exits

end SdSpeed

/-- On every way out, with any answers to the calls and any number of turns of
the loops, the three functions have released exactly what they acquired. -/
theorem exits_release_once :
    (∀ {World : Type} (env : Environment Upgrade.Call.Answer World)
        (filePath : CString) (partitionId : UInt8) (before : World),
      Ensures env (Upgrade.writeOtaFileToPartition filePath partitionId) before
        fun trace _ _ => ReleasedOnce (trace.flatMap Upgrade.Event.uses)) ∧
    (∀ {World : Type} (env : Environment HttpDl.Call.Answer World)
        (fuel : Nat) (filepath : CString) (outputSha256 : HttpDl.Digest)
        (before : World),
      Ensures env (HttpDl.calculateFileSha256 fuel filepath outputSha256) before
        fun trace _ _ => ReleasedOnce (trace.flatMap HttpDl.Event.uses)) ∧
    (∀ {World : Type} (env : Environment SdSpeed.Call.Answer World)
        (fuel : Nat) (argv : List CString) (before : World),
      Ensures env (SdSpeed.cmdSdSpeed fuel argv) before
        fun trace _ _ => ReleasedOnce (trace.flatMap SdSpeed.Event.uses)) := by
  refine ⟨?_, ?_, ?_⟩
  · intro World env filePath partitionId before trace rc after runs
    obtain ⟨_, allowed, rfl⟩ := Upgrade.writeOta_accounts.runs runs
    exact releasedOnce_of_account allowed
  · intro World env fuel filepath outputSha256 before trace result after runs
    obtain ⟨_, allowed, rfl⟩ :=
      (HttpDl.calculateFileSha256_accounts List.not_mem_nil
        List.not_mem_nil).runs runs
    exact releasedOnce_of_account allowed
  · intro World env fuel argv before trace ret after runs
    obtain ⟨_, allowed, rfl⟩ := SdSpeed.cmdSdSpeed_accounts.runs runs
    exact releasedOnce_of_account allowed

end SzpiSta
