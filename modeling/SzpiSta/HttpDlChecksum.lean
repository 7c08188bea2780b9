import SzpiSta.HttpDlVerified

/-!
# What the checksum line says

The line printed for a file begins with the hash of its whole content in
hexadecimal, however the file was read.  A calculation in which nothing fails
comes to it; one that fails before it finishes the hash leaves the output buffer
alone.
-/

namespace SzpiSta

namespace HttpDl

open ExternalCalls ExternalCalls.Program HexText

/-- A failed answer of another call than the one that finishes the hash. -/
def FailsBeforeFinish (trace : Trace) : Prop :=
  ∃ event ∈ trace, HashFails event ∧ event.call ≠ .psaHashFinish

/-- The hash is finished only if nothing has failed before. -/
def StopsAtFailure (trace : Trace) : Prop :=
  FailsBeforeFinish trace → ∀ event ∈ trace, event.call ≠ .psaHashFinish

/-- One line is printed, and its first 64 characters are the digest in
hexadecimal. -/
def PrintsDigest (digest : Digest) (trace : Trace) : Prop :=
  ∃ line, trace = [⟨.printk line, ()⟩] ∧
    decodeHex (line.take 64) = some digest.toList

section Line

variable {sha256 : List UInt8 → Digest} {world : World}
variable {digest : Digest} {filename : CString}

/-- The text fits `char sha256_str[65]` with its terminator. -/
theorem hexText_digest_length : (hexText digest.toList).length = 64 := by
  rw [hexText_length, Vector.length_toList]

theorem sha256Line_take :
    (sha256Line digest filename).take 64 = hexText digest.toList := by
  unfold sha256Line
  rw [List.append_assoc, List.append_assoc]
  exact List.take_left' hexText_digest_length

theorem printSha256Sum_ensures :
    Ensures (environment sha256) (printSha256Sum digest filename) world
      fun trace _ after => PrintsDigest digest trace ∧ after = world := by
  unfold printSha256Sum
  rw [ensures_request]
  rintro _ _ rfl
  refine ⟨⟨_, rfl, ?_⟩, rfl⟩
  rw [sha256Line_take, decodeHex_hexText]

end Line

section Calculation

variable {sha256 : List UInt8 → Digest} {before world : World}
variable {path : CString} {content : List UInt8} {fuel : Nat}
variable {outputSha256 : Digest} {front rest : Trace}

/-- Successful events that do not finish the hash make no difference. -/
theorem StopsAtFailure.append (stops : StopsAtFailure rest)
    (succeeded : ∀ event ∈ front,
      ¬ HashFails event ∧ event.call ≠ .psaHashFinish) :
    StopsAtFailure (front ++ rest) := by
  rintro ⟨event, member, fails, other⟩ later laterMember
  have failsInRest : FailsBeforeFinish rest := by
    rcases List.mem_append.mp member with member | member
    · exact ((succeeded event member).1 fails).elim
    · exact ⟨event, member, fails, other⟩
  rcases List.mem_append.mp laterMember with member | member
  · exact (succeeded later member).2
  · exact stops failsInRest later member

theorem abortHash_notFails {rc : Int} :
    Ensures (environment sha256) (abortHash rc outputSha256) world
      fun trace _ _ => ∀ event ∈ trace, ¬ HashFails event := by
  unfold abortHash
  simp only [ensures_bind, ensures_request, ensures_pure]
  rintro _ _ - _ _ -
  simp [HashFails]

theorem hashOpenedFile_stops (start : Hashing path content 0 [] world) :
    Ensures (environment sha256) (hashOpenedFile fuel outputSha256) world
      fun trace _ _ => StopsAtFailure trace := by
  unfold hashOpenedFile
  rw [ensures_bind]
  intro reading ended middle loopRuns
  have means := hashLoop_ensures start _ _ _ loopRuns
  have unfinished := hashLoop_unfinished loopRuns
  have aborted {closing : Trace}
      (notFinished : ∀ event ∈ closing, event.call ≠ .psaHashFinish) :
      StopsAtFailure (reading ++ closing) := by
    intro _ event member
    rcases List.mem_append.mp member with member | member
    · exact unfinished event member
    · exact notFinished event member
  cases ended with
  | updateFailed =>
      exact abortHash_ensures.mono fun _ _ _ closes => aborted closes.2
  | bytesRead value =>
      dsimp only
      split
      case isTrue negative =>
        exact abortHash_ensures.mono fun _ _ _ closes => aborted closes.2
      case isFalse notNegative =>
      obtain ⟨noFailure, -⟩ :=
        (means.resolve_left fun failed => notNegative failed.1).2
      have reads : ∀ event ∈ reading,
          ¬ HashFails event ∧ event.call ≠ .psaHashFinish :=
        fun event member => ⟨noFailure event member, unfinished event member⟩
      -- Whatever follows, only the call that finishes the hash can have failed.
      have finishing {status : Int} {hash : Digest} {closing : Trace}
          (closes : ∀ event ∈ closing, ¬ HashFails event) :
          StopsAtFailure (reading ++
            ([⟨.psaHashFinish, (status, hash)⟩] ++ closing)) := by
        refine StopsAtFailure.append ?_ reads
        rintro ⟨event, member, fails, other⟩
        rcases List.mem_cons.mp member with rfl | member
        · exact (other rfl).elim
        · exact (closes event member fails).elim
      simp only [ensures_bind, ensures_request]
      rintro ⟨status, hash⟩ finished -
      dsimp only
      split
      case isTrue failed =>
        exact abortHash_notFails.mono fun _ _ _ closes => finishing closes
      case isFalse succeeded =>
      simp only [ensures_bind, ensures_request, ensures_pure]
      rintro _ _ -
      exact finishing (by simp [HashFails])

/-- The calculation goes on only as long as nothing fails. -/
theorem calculateFileSha256_stops :
    Ensures (environment sha256) (calculateFileSha256 fuel path outputSha256)
      before fun trace _ _ => StopsAtFailure trace := by
  refine calculateFileSha256_cases.mono fun trace result after cases => ?_
  rcases cases with ⟨-, -, -, unfinished⟩ |
    ⟨content, opening, rest, ready, -, succeeded, rfl, start, runs⟩
  · exact fun _ => unfinished
  · exact (hashOpenedFile_stops start _ _ _ runs).append succeeded

end Calculation

section Whole

variable (sha256 : List UInt8 → Digest) (before : World) (path : CString)
variable (filename : CString) (outputSha256 : Digest) {fuel : Nat}

/-- A return of 0 means the hash of the whole content, in the buffer and on the
printed line; after an earlier failure the buffer is as it was; and without a
failure 0 is returned. -/
theorem checksum_is_of_whole_content
    (enough : ∀ content, before.files path = some content →
      content.length < fuel) :
    Completes (environment sha256)
        (calculateFileSha256 fuel path outputSha256) before ∧
      Ensures (environment sha256) (calculateFileSha256 fuel path outputSha256)
        before fun trace result after =>
          (result.1 = 0 → ∃ content, before.files path = some content ∧
            result.2 = sha256 content ∧
            Ensures (environment sha256) (printSha256Sum result.2 filename)
              after fun printing _ _ =>
                PrintsDigest (sha256 content) printing) ∧
          (FailsBeforeFinish trace →
            result.1 < 0 ∧ result.2 = outputSha256) ∧
          ((∀ event ∈ trace, ¬ HashFails event) → result.1 = 0) := by
  refine ⟨calculateFileSha256_completes enough, ?_⟩
  intro trace result after runs
  cases found : before.files path with
  | none =>
      -- Without a file the calculation ends when it opens it.
      rcases calculateFileSha256_cases _ _ _ runs with
        ⟨negative, kept, ⟨event, member, fails⟩, -⟩ |
          ⟨content, -, -, -, found', -⟩
      · exact ⟨fun zero => by omega, fun _ => ⟨negative, kept⟩,
          fun noFailure => (noFailure event member fails).elim⟩
      · cases found.symm.trans found'
  | some content =>
      obtain ⟨hashResult, buffer⟩ := calculateFileSha256_ensures found _ _ _ runs
      have stops := calculateFileSha256_stops _ _ _ runs
      rcases hashResult with ⟨negative, event, member, fails⟩ |
        ⟨zero, noFailure, isHash⟩
      · refine ⟨fun zero => by omega, fun early => ⟨negative, ?_⟩,
          fun noFailure => (noFailure event member fails).elim⟩
        rw [buffer, foldl_bufferAfter (stops early)]
      · refine ⟨fun _ => ⟨content, rfl, isHash, ?_⟩, ?_, fun _ => zero⟩
        · rw [isHash]
          exact printSha256Sum_ensures.mono fun _ _ _ prints => prints.1
        · rintro ⟨event, member, fails, -⟩
          exact (noFailure event member fails).elim

end Whole

/-- The three bytes `abc`. -/
def abc : Fragment := ⟨[97, 98, 99], by decide, by decide⟩

/-- A calculation that reads them at once, and the line printed after it. -/
theorem checksum_of_abc_is_printed : ∃ trace hash after,
    Runs (environment Sha256.hash) (calculateFileSha256 4 (savedAt []) zeroDigest)
        (cardWith abc.body) trace (0, hash) after ∧
      hash = Sha256.hash abc.body ∧
      Runs (environment Sha256.hash) (printSha256Sum hash (savedAt [])) after
        [⟨.printk (sha256Line (Sha256.hash abc.body) (savedAt [])), ()⟩] ()
        after ∧
      PrintsDigest (Sha256.hash abc.body)
        [⟨.printk (sha256Line (Sha256.hash abc.body) (savedAt [])), ()⟩] := by
  have runs : Runs (environment Sha256.hash)
      (calculateFileSha256 4 (savedAt []) zeroDigest) (cardWith abc.body)
      abc.hashing (0, Sha256.hash abc.body) _ := abc.hashing_runs rfl
  have enough : ∀ content,
      (cardWith abc.body).files (savedAt []) = some content →
        content.length < 4 := by
    intro content found
    obtain rfl : abc.body = content := Option.some.inj found
    decide
  obtain ⟨-, whole⟩ := checksum_is_of_whole_content Sha256.hash
    (cardWith abc.body) (savedAt []) (savedAt []) zeroDigest enough
  obtain ⟨content, found, isHash, prints⟩ := (whole _ _ _ runs).1 rfl
  obtain rfl : abc.body = content := Option.some.inj found
  have printing : Runs (environment Sha256.hash)
      (printSha256Sum (Sha256.hash abc.body) (savedAt []))
      (abc.hashed (cardWith abc.body))
      [⟨.printk (sha256Line (Sha256.hash abc.body) (savedAt [])), ()⟩] ()
      (abc.hashed (cardWith abc.body)) := by
    apply Runs.call
    · exact rfl
    exact .done _ _
  exact ⟨_, _, _, runs, isHash, printing, prints _ _ _ printing⟩

end HttpDl

end SzpiSta
