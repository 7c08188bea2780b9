import SzpiSta.HttpDlFile

/-!
# What the return value of a download says

Of all the calls of a download only the first, which opens the file to save to,
decides the return value; so a return of 0 is a verified download if none of the
other calls failed, and only then, unless what a failed checksum leaves in its
buffer is the digest of the file by coincidence.
-/

namespace SzpiSta

namespace HttpDl

open ExternalCalls ExternalCalls.Program HexText Overwriting

/-- The download is complete, and the printed checksum is that of the saved
file. -/
structure Verified (sha256 : List UInt8 → Digest) (fullPath : CString)
    (trace : Trace) (after : World) : Prop where
  downloaded : Downloaded trace
  checksum : ∃ content, after.files fullPath = some content ∧
    (⟨.printk (sha256Line (sha256 content) fullPath), ()⟩ :
      Event Call.Answer) ∈ trace

/-- The file to save to could not be opened. -/
def SaveRefused (fullPath : CString) (trace : Trace) : Prop :=
  ∃ rc : Int, rc < 0 ∧
    (⟨.fsOpen fullPath saveFlags, rc⟩ : Event Call.Answer) ∈ trace

/-- No call of the request or of the checksum failed. -/
def NothingFails (trace : Trace) : Prop :=
  ∀ event ∈ trace, ¬ DownloadFails event ∧ ¬ HashFails event

/-- A call of the checksum failed, and yet the buffer holds the digest of the
saved file. -/
def DigestCoincides (sha256 : List UInt8 → Digest) (fullPath : CString)
    (trace : Trace) (after : World) : Prop :=
  (∃ event ∈ trace, HashFails event) ∧
    ∃ content, after.files fullPath = some content ∧
      trace.foldl bufferAfter zeroDigest = sha256 content

section File

variable {sha256 : List UInt8 → Digest} {before after : World} {fuel : Nat}
variable {hostname port path savePath : CString} {trace : Trace} {ret : Int}

section Checksum

variable {fullPath : CString} {requesting hashing : Trace} {hash digest : Digest}
variable {content : List UInt8} {rc : Int}

theorem sha256Line_injective {first second : Digest} {filename : CString}
    (same : sha256Line first filename = sha256Line second filename) :
    first = second := by
  unfold sha256Line at same
  have sameText := List.append_cancel_right
    (List.append_cancel_right (List.append_cancel_right same))
  exact Vector.toList_inj.mp (hexText_injective sameText)

/-- The only line printed is the one with the computed digest. -/
theorem printed_iff (byRequest : ∀ event ∈ requesting, MadeByRequest event.call)
    (byHash : ∀ event ∈ hashing, MadeByHash event.call) :
    (⟨.printk (sha256Line digest fullPath), ()⟩ : Event Call.Answer) ∈
        [⟨.fsOpen fullPath saveFlags, ret⟩] ++
          (requesting ++ closing fullPath hashing hash) ↔
      hash = digest := by
  constructor
  · intro member
    simp only [closing, List.mem_append, List.mem_cons] at member
    rcases member with (member | member) | member | member | member | member |
      member
    · cases member
    · cases member
    · exact (byRequest _ member).elim
    · cases member
    · exact (byHash _ member).elim
    · have sameLine : sha256Line digest fullPath = sha256Line hash fullPath := by
        simpa using member
      exact (sha256Line_injective sameLine).symm
    · cases member
  · rintro rfl
    simp [closing]

theorem buffer_eq (byRequest : ∀ event ∈ requesting, MadeByRequest event.call)
    (buffer : hash = hashing.foldl bufferAfter zeroDigest) :
    List.foldl bufferAfter zeroDigest ([⟨.fsOpen fullPath saveFlags, ret⟩] ++
      (requesting ++ closing fullPath hashing hash)) = hash := by
  have requestKeeps : requesting.foldl bufferAfter zeroDigest = zeroDigest := by
    refine foldl_bufferAfter fun event member isFinish => ?_
    have made := byRequest event member
    rw [isFinish] at made
    exact made
  calc List.foldl bufferAfter zeroDigest
        ([(⟨.fsOpen fullPath saveFlags, ret⟩ : Event Call.Answer)] ++
          (requesting ++ closing fullPath hashing hash))
      = (closing fullPath hashing hash).foldl bufferAfter
          (requesting.foldl bufferAfter zeroDigest) := by
        rw [List.foldl_append, List.foldl_append]
        rfl
    _ = List.foldl bufferAfter zeroDigest
          (hashing ++ [⟨.printk (sha256Line hash fullPath), ()⟩]) := by
        rw [requestKeeps]
        rfl
    _ = hashing.foldl bufferAfter zeroDigest := by
        rw [List.foldl_append]
        rfl
    _ = hash := buffer.symm

/-- Without a failure the checksum is that of the file, and with one it is only
by coincidence. -/
theorem hash_of_download
    (byRequest : ∀ event ∈ requesting, MadeByRequest event.call)
    (found : after.files fullPath = some content)
    (result : HashResult sha256 content hashing rc hash)
    (buffer : hash = hashing.foldl bufferAfter zeroDigest)
    {download : Trace} (whole : download =
      [⟨.fsOpen fullPath saveFlags, ret⟩] ++
        (requesting ++ closing fullPath hashing hash)) :
    ((∀ event ∈ download, ¬ HashFails event) → hash = sha256 content) ∧
      (hash = sha256 content → (∀ event ∈ download, ¬ HashFails event) ∨
        DigestCoincides sha256 fullPath download after) := by
  subst whole
  constructor
  · intro noFailure
    rcases result with ⟨-, event, member, fails⟩ | ⟨-, -, isHash⟩
    · exact (noFailure event (by simp [closing, member]) fails).elim
    · exact isHash
  · intro isHash
    by_cases fails : ∃ event ∈ [⟨.fsOpen fullPath saveFlags, ret⟩] ++
        (requesting ++ closing fullPath hashing hash), HashFails event
    · exact .inr ⟨fails, content, found,
        (buffer_eq byRequest buffer).trans isHash⟩
    · exact .inl fun event member failed => fails ⟨event, member, failed⟩

end Checksum

/-- A return value that is not negative means a verified download if the file
could not be opened or no other call failed, and only then, unless a failed
checksum left the right digest by coincidence. -/
theorem success_means_verified
    (runs : Runs (environment sha256)
      (httpDlFile fuel hostname port path savePath) before trace ret after) :
    (SaveRefused (savedAt savePath) trace ∨ NothingFails trace →
      0 ≤ ret → Verified sha256 (savedAt savePath) trace after) ∧
    ((0 ≤ ret → Verified sha256 (savedAt savePath) trace after) →
      (SaveRefused (savedAt savePath) trace ∨ NothingFails trace) ∨
        DigestCoincides sha256 (savedAt savePath) trace after) := by
  cases httpDlFile_ensures _ _ _ runs with
  | refused _ negative =>
      have refused : SaveRefused (savedAt savePath)
          [⟨.fsOpen (savedAt savePath) saveFlags, ret⟩] :=
        ⟨ret, negative, List.mem_singleton_self _⟩
      exact ⟨fun _ ok => by omega, fun _ => .inl (.inl refused)⟩
  | @opened openRet requesting hashing loaded _ content hash rc openOk outcome
      found byHash result buffer kept =>
      have byRequest := outcome.calls
      have foundAfter : after.files (savedAt savePath) = some content := by
        rw [kept]
        exact found
      have opens := opening_outside (savedAt savePath) openRet
      have closes := closing_outside (savedAt savePath) hash byHash
      have notRefused : ¬ SaveRefused (savedAt savePath)
          ([⟨.fsOpen (savedAt savePath) saveFlags, openRet⟩] ++
            (requesting ++ closing (savedAt savePath) hashing hash)) := by
        rintro ⟨rc', negative, member⟩
        simp only [closing, List.mem_append, List.mem_cons] at member
        rcases member with (member | member) | member | member | member |
          member | member
        · cases member
          omega
        · cases member
        · exact byRequest _ member
        · cases member
        · exact absurd (byHash _ member) (by rintro ⟨⟩)
        · cases member
        · cases member
      obtain ⟨hashed, coincides⟩ :=
        hash_of_download byRequest foundAfter result buffer rfl
      have complete := (outcome.downloaded_iff.trans
        (noDownloadFailure_surrounded_iff opens closes).symm)
      rw [← downloaded_surrounded_iff opens closes] at complete
      constructor
      · rintro (refused | nothingFails) -
        · exact (notRefused refused).elim
        · have isDownloaded := complete.mpr fun event member =>
            (nothingFails event member).1
          have isHash := hashed fun event member =>
            (nothingFails event member).2
          exact ⟨isDownloaded, content, foundAfter,
            (printed_iff byRequest byHash).mpr isHash⟩
      · intro verified
        obtain ⟨isDownloaded, content', found', printed⟩ := verified (Int.le_refl 0)
        obtain rfl : content = content' :=
          Option.some.inj (foundAfter.symm.trans found')
        rcases coincides ((printed_iff byRequest byHash).mp printed) with
          noHashFailure | coincidence
        · refine .inl (.inr fun event member => ⟨?_, ?_⟩)
          · exact complete.mp isDownloaded event member
          · exact noHashFailure event member
        · exact .inr coincidence

end File

section SampleDownload

variable (fragment : Fragment) {before : World}

/-- The calls of the checksum of a file that is read at once. -/
def Fragment.hashing : Trace :=
  [⟨.psaCryptoInit, (0 : Int)⟩,
    ⟨.fsOpen (savedAt []) { read := true }, (0 : Int)⟩,
    ⟨.psaHashSetup, (0 : Int)⟩,
    ⟨.fsRead readBufferSize, ReadAnswer.data fragment.body fragment.fits⟩,
    ⟨.psaHashUpdate fragment.body, (0 : Int)⟩,
    ⟨.fsRead readBufferSize, ReadAnswer.data [] (by decide)⟩,
    ⟨.psaHashFinish, ((0 : Int), Sha256.hash fragment.body)⟩, ⟨.fsClose, ()⟩]

/-- The world at the end of the checksum. -/
def Fragment.hashed (world : World) : World :=
  { world.openFile (savedAt []) { read := true } with
    file := none
    hashed := fragment.body }

/-- A turn of the reading loop that brings the whole file. -/
theorem Fragment.turn_runs {world : World}
    (opened : world.file = some ⟨savedAt [], 0⟩)
    (found : world.files (savedAt []) = some fragment.body) :
    Runs (environment Sha256.hash) (hashChunk ()) world
      [⟨.fsRead readBufferSize, ReadAnswer.data fragment.body fragment.fits⟩,
        ⟨.psaHashUpdate fragment.body, (0 : Int)⟩] (.again ())
      { world with
        file := some ⟨savedAt [], 0 + fragment.body.length⟩
        hashed := world.hashed ++ fragment.body } := by
  obtain ⟨_ | ⟨first, rest⟩, something, fits⟩ := fragment
  · cases something
  · apply Runs.call
    · refine ⟨⟨savedAt [], 0⟩, first :: rest, opened, found, ⟨?_, ?_⟩, rfl⟩
      · rw [List.drop_zero, List.take_length]
      · intro nothing
        cases nothing
    apply Runs.call
    · exact rfl
    exact .done _ _

theorem Fragment.hashing_runs {world : World} {fuel : Nat}
    (found : world.files (savedAt []) = some fragment.body) :
    Runs (environment Sha256.hash)
      (calculateFileSha256 (fuel + 2) (savedAt []) zeroDigest) world
      fragment.hashing (0, Sha256.hash fragment.body)
      (fragment.hashed world) := by
  let opened := world.openFile (savedAt []) { read := true }
  let ready : World := { opened with hashed := [] }
  let read : World := { opened with
    file := some ⟨savedAt [], 0 + fragment.body.length⟩
    hashed := fragment.body }
  have isFile : opened.files (savedAt []) = some fragment.body := by
    simp [opened, World.openFile, found]
  have ends : Runs (environment Sha256.hash) (hashChunk ()) read
      [⟨.fsRead readBufferSize, ReadAnswer.data [] (by decide)⟩]
      (.leave (.bytesRead 0)) read := by
    apply Runs.call
    · refine ⟨⟨savedAt [], 0 + fragment.body.length⟩, fragment.body, rfl, isFile,
        ⟨rfl, fun _ _ => ?_⟩, rfl⟩
      exact Nat.le_of_eq (Nat.zero_add _).symm
    exact .done _ _
  have loops : Runs (environment Sha256.hash) (loop hashChunk (fuel + 2) ()) ready _
      (.bytesRead 0) read := .loop_again (fragment.turn_runs rfl isFile) (.loop_leave ends)
  apply Runs.call
  · exact rfl
  apply Runs.call
  · exact ⟨fun _ => by rw [found]; rfl, rfl⟩
  apply Runs.call
  · exact rfl
  apply loops.bind
  apply Runs.call
  · exact ⟨rfl, fun _ => rfl⟩
  apply Runs.call
  · exact rfl
  exact .done _ _

/-- The download with its checksum. -/
def Fragment.checked : Trace :=
  ⟨.fsOpen (savedAt []) saveFlags, (0 : Int)⟩ :: (fragment.request ++
    ⟨.fsClose, ()⟩ :: (fragment.hashing ++
      [⟨.printk (sha256Line (Sha256.hash fragment.body) (savedAt [])), ()⟩]))

/-- It replaces a file that is not longer. -/
theorem Fragment.checked_runs
    (shorter : ((before.files (savedAt [])).getD []).length ≤
      fragment.body.length) :
    Runs (environment Sha256.hash) (httpDlFile 2 [] [] [] []) before
      fragment.checked 0
      (fragment.hashed { fragment.loaded before with file := none }) := by
  have saved : (fragment.loaded before).files (savedAt []) =
      some fragment.body := by
    rw [fragment.loaded_files, Fragment.stored, overwrite_zero,
      List.drop_eq_nil_of_le shorter, List.append_nil]
  apply Runs.call
  · exact ⟨fun keeps => absurd keeps (by decide), rfl⟩
  apply fragment.request_runs.bind
  apply Runs.call
  · exact rfl
  have hashes : Runs (environment Sha256.hash)
      (calculateFileSha256 2 (savedAt []) zeroDigest)
      { fragment.loaded before with file := none } fragment.hashing _ _ :=
    fragment.hashing_runs saved
  apply hashes.bind
  apply Runs.call
  · exact rfl
  exact .done _ _

theorem Fragment.checked_nothingFails : NothingFails fragment.checked := by
  simp [NothingFails, checked, hashing, request, answer, delivering,
    DownloadFails, WriteFails, HashFails, saveFlags]

/-- The checksum of a download is that of the byte it saves. -/
theorem checked_download_verified : ∃ after,
    Runs (environment Sha256.hash) (httpDlFile 2 [] [] [] []) (cardWith [1])
        shortBody.checked 0 after ∧
      Verified Sha256.hash (savedAt []) shortBody.checked after := by
  have runs : Runs (environment Sha256.hash) (httpDlFile 2 [] [] [] [])
      (cardWith [1]) shortBody.checked 0 _ := shortBody.checked_runs (by decide)
  exact ⟨_, runs, (success_means_verified runs).1
    (.inr shortBody.checked_nothingFails) (Int.le_refl 0)⟩

/-- The download of a host that cannot be resolved. -/
def unresolvedDownload : Trace :=
  [⟨.fsOpen (savedAt []) saveFlags, (0 : Int)⟩,
    ⟨.getaddrinfo [] [], ((-2 : Int), ([] : List UInt8))⟩, ⟨.fsClose, ()⟩,
    ⟨.psaCryptoInit, (1 : Int)⟩,
    ⟨.printk (sha256Line zeroDigest (savedAt [])), ()⟩]

/-- It returns 0 without a connection. -/
theorem unresolvedDownload_succeeds :
    ∃ after, Runs (environment Sha256.hash) (httpDlFile 2 [] [] [] [])
        (cardWith []) unresolvedDownload 0 after ∧
      ¬ Verified Sha256.hash (savedAt []) unresolvedDownload after := by
  refine ⟨{ (cardWith []).openFile (savedAt []) saveFlags with file := none },
    ?_, ?_⟩
  · apply Runs.call
    · exact ⟨fun _ => rfl, rfl⟩
    apply Runs.call
    · exact rfl
    apply Runs.call
    · exact rfl
    apply Runs.call
    · exact rfl
    apply Runs.call
    · exact rfl
    exact .done _ _
  · intro verified
    obtain ⟨sock, addr, ret, member, -⟩ := verified.downloaded.connected
    simp [unresolvedDownload] at member

end SampleDownload

end HttpDl

end SzpiSta
