import SzpiSta.HttpDl

/-!
# The checksum of a file

`calculate_file_sha256` either meets a failed answer, and then returns a
negative value, or returns 0 with the hash of the whole file.  It never changes
a file.
-/

namespace SzpiSta

namespace HttpDl

open ExternalCalls ExternalCalls.Program

/-- Answers by which the calculation of a checksum fails. -/
def HashFails : Event Call.Answer → Prop
  | ⟨.psaCryptoInit, status⟩ => status ≠ 0
  | ⟨.fsOpen _ flags, rc⟩ => flags.create = false ∧ rc < 0
  | ⟨.psaHashSetup, status⟩ => status ≠ 0
  | ⟨.fsRead _, .error _ _⟩ => True
  | ⟨.psaHashUpdate _, status⟩ => status ≠ 0
  | ⟨.psaHashFinish, (status, _)⟩ => status ≠ 0
  | _ => False

/-- The calls of the reading loop. -/
def ReadsAndUpdates : Call → Prop
  | .fsRead _ | .psaHashUpdate _ => True
  | _ => False

/-- The calls of a checksum calculation. -/
def MadeByHash : Call → Prop
  | .fsOpen _ flags => flags = { read := true }
  | .psaCryptoInit | .psaHashSetup | .psaHashFinish | .psaHashAbort => True
  | .fsRead _ | .psaHashUpdate _ | .fsClose => True
  | _ => False

theorem neg_eIo : -eIo < 0 := by decide

/-- The output buffer after one event. -/
def bufferAfter (buffer : Digest) : Event Call.Answer → Digest
  | ⟨.psaHashFinish, (_, hash)⟩ => hash
  | _ => buffer

theorem foldl_bufferAfter {trace : Trace} {buffer : Digest}
    (notFinished : ∀ event ∈ trace, event.call ≠ .psaHashFinish) :
    trace.foldl bufferAfter buffer = buffer := by
  induction trace with
  | nil => rfl
  | cons event trace ih =>
      have kept : bufferAfter buffer event = buffer := by
        have notFinish := notFinished event (by simp)
        rcases event with ⟨call, answer⟩
        cases call <;> first | rfl | exact (notFinish rfl).elim
      rw [List.foldl_cons, kept]
      exact ih fun later member => notFinished later (by simp [member])

section Calls

theorem hashChunk_issues : Issues ReadsAndUpdates (hashChunk ()) := by
  unfold hashChunk
  apply Issues.bind (issues_request.mpr trivial)
  rintro (⟨code, negative⟩ | ⟨bytes, fits⟩)
  · exact issues_pure
  · dsimp only
    split
    · exact issues_pure
    · refine Issues.bind (issues_request.mpr trivial) fun status => ?_
      split <;> exact issues_pure

theorem abortHash_issues {rc : Int} {outputSha256 : Digest} :
    Issues MadeByHash (abortHash rc outputSha256) :=
  ⟨trivial, fun _ => ⟨trivial, fun _ => trivial⟩⟩

theorem hashOpenedFile_issues {fuel : Nat} {outputSha256 : Digest} :
    Issues MadeByHash (hashOpenedFile fuel outputSha256) := by
  have loopIssues : Issues MadeByHash (loop hashChunk fuel ()) := by
    refine issues_loop (fun _ => hashChunk_issues.mono ?_) fuel ()
    intro call reads
    cases call <;> trivial
  unfold hashOpenedFile
  apply Issues.bind loopIssues
  rintro (bytesRead | _)
  · dsimp only
    split
    · exact abortHash_issues
    refine Issues.bind (issues_request.mpr trivial) fun (status, hash) => ?_
    dsimp only
    split
    · exact abortHash_issues
    · exact Issues.bind (issues_request.mpr trivial) fun _ => issues_pure
  · exact abortHash_issues

theorem calculateFileSha256_issues {fuel : Nat} {filepath : CString}
    {outputSha256 : Digest} :
    Issues MadeByHash (calculateFileSha256 fuel filepath outputSha256) := by
  unfold calculateFileSha256
  refine Issues.bind (issues_request.mpr trivial) fun status => ?_
  split
  · exact issues_pure
  refine Issues.bind (issues_request.mpr rfl) fun rc => ?_
  split
  · exact issues_pure
  refine Issues.bind (issues_request.mpr trivial) fun status => ?_
  split
  · exact Issues.bind (issues_request.mpr trivial) fun _ => issues_pure
  · exact hashOpenedFile_issues

end Calls

section Runs

variable {sha256 : List UInt8 → Digest} {world : World}
variable {path : CString} {content : List UInt8}

theorem openFile_files {flags : OpenFlags} (found : (world.files path).isSome)
    (keeps : flags.trunc = false) :
    (world.openFile path flags).files = world.files := by
  obtain ⟨content, isContent⟩ := Option.isSome_iff_exists.mp found
  simp [World.openFile, keeps, isContent, Function.update_eq_self_iff]

/-- No call of the calculation changes a file. -/
theorem files_of_madeByHash {call : Call} {answer : call.Answer}
    {after : World} (made : MadeByHash call)
    (answered : (environment sha256).answers world call answer after) :
    after.files = world.files := by
  cases call with
  | fsOpen path flags =>
      obtain rfl : flags = { read := true } := made
      simp only [environment] at answered
      split at answered
      · rw [answered]
      · rw [answered.2]
        exact openFile_files (answered.1 trivial) rfl
  | fsRead count =>
      cases answer with
      | error code negative =>
          have same : after = world := answered
          rw [same]
      | data bytes fits =>
          obtain ⟨file, content, -, -, -, rfl⟩ := answered
          rfl
  | psaHashSetup | psaHashUpdate =>
      simp only [environment] at answered
      split at answered <;> rw [answered]
  | psaHashFinish => rw [answered.1]
  | fsClose =>
      have same : after = { world with file := none } := answered
      rw [same]
  | psaCryptoInit | psaHashAbort =>
      have same : after = world := answered
      rw [same]
  | _ => exact made.elim

/-- The invariant of the reading loop: the hash has absorbed the file up to the
position. -/
structure Hashing (path : CString) (content : List UInt8) (position : Nat)
    (trace : Trace) (world : World) : Prop where
  opened : world.file = some ⟨path, position⟩
  found : world.files path = some content
  inside : position ≤ content.length
  absorbed : world.hashed = content.take position
  noFailure : ∀ event ∈ trace, ¬ HashFails event

/-- The loop starts with the file just opened and the operation set up. -/
theorem Hashing.start (found : world.files path = some content) :
    Hashing path content 0 []
      { world.openFile path { read := true } with hashed := [] } := by
  refine ⟨rfl, ?_, Nat.zero_le _, rfl, by simp⟩
  simp [World.openFile, found]

/-- How the loop ends. -/
def ReadLoopExit.Means (content : List UInt8) (trace : Trace)
    (after : World) : ReadLoopExit → Prop
  | .updateFailed => ∃ event ∈ trace, HashFails event
  | .bytesRead value =>
      (value < 0 ∧ ∃ event ∈ trace, HashFails event) ∨
        (value = 0 ∧ (∀ event ∈ trace, ¬ HashFails event) ∧
          after.hashed = content)

theorem take_add_of_readsOn {position count : Nat} {bytes : List UInt8}
    (reads : ReadsOn content position count bytes) :
    content.take position ++ bytes =
      content.take (position + bytes.length) := by
  rw [List.take_add]
  exact congrArg (content.take position ++ ·) reads.1

theorem hashChunk_ensures {position : Nat} {trace : Trace}
    (hashing : Hashing path content position trace world) :
    Ensures (environment sha256) (hashChunk ()) world fun more step after =>
      step.Meets
        (fun _ => ∃ next, position < next ∧
          Hashing path content next (trace ++ more) after)
        (fun ended => ended.Means content (trace ++ more) after) := by
  unfold hashChunk
  simp only [ensures_bind, ensures_request]
  rintro (⟨code, negative⟩ | ⟨bytes, fits⟩) middle answered
  · rw [ensures_pure]
    exact .inl ⟨negative,
      ⟨.fsRead readBufferSize, ReadAnswer.error code negative⟩, by simp, trivial⟩
  obtain ⟨file, content', opened, found, reads, rfl⟩ := answered
  obtain rfl : _ = file := Option.some.inj (hashing.opened.symm.trans opened)
  obtain rfl : content = content' :=
    Option.some.inj (hashing.found.symm.trans found)
  have noFailure : ∀ event ∈ trace ++
      [⟨.fsRead readBufferSize, ReadAnswer.data bytes fits⟩],
      ¬ HashFails event := by
    intro event member
    rcases List.mem_append.mp member with member | member
    · exact hashing.noFailure event member
    · cases List.mem_singleton.mp member
      exact not_false
  dsimp only
  split
  case isTrue nothing =>
    have atEnd : content.length ≤ position :=
      reads.2 (List.length_eq_zero_iff.mp nothing) (by decide)
    rw [ensures_pure, List.append_nil]
    refine .inr ⟨rfl, noFailure, ?_⟩
    exact hashing.absorbed.trans (List.take_of_length_le atEnd)
  case isFalse something =>
  simp only [ensures_bind, ensures_request]
  rintro (status : Int) after updated
  split
  case isTrue failed =>
    rw [ensures_pure]
    exact ⟨⟨.psaHashUpdate bytes, status⟩, by simp, failed⟩
  case isFalse succeeded =>
    have accepted : status = 0 := not_not.mp succeeded
    simp only [environment, accepted, if_true] at updated
    subst updated
    rw [ensures_pure, List.append_nil, ← List.append_assoc]
    refine ⟨position + bytes.length, by omega, rfl, hashing.found,
      reads.length_le hashing.inside, ?_, fun event member => ?_⟩
    · exact (congrArg (· ++ bytes) hashing.absorbed).trans
        (take_add_of_readsOn reads)
    · rcases List.mem_append.mp member with member | member
      · exact noFailure event member
      · cases List.mem_singleton.mp member
        exact fun fails => fails accepted

theorem hashLoop_ensures {fuel : Nat}
    (start : Hashing path content 0 [] world) :
    Ensures (environment sha256) (loop hashChunk fuel ()) world
      fun trace ended after => ended.Means content trace after := by
  refine ensures_loop (fun _ trace world =>
    ∃ position, Hashing path content position trace world) ?_ fuel ⟨0, start⟩
  rintro _ trace world ⟨position, hashing⟩
  refine (hashChunk_ensures hashing).mono ?_
  rintro more (_ | ended) after holds
  · obtain ⟨next, -, hashing⟩ := holds
    exact ⟨next, hashing⟩
  · exact holds

/-- The reading loop does not finish the hash. -/
theorem hashLoop_unfinished {fuel : Nat} {trace : Trace} {ended : ReadLoopExit}
    {after : World}
    (runs : Runs (environment sha256) (loop hashChunk fuel ()) world trace ended
      after) : ∀ event ∈ trace, event.call ≠ .psaHashFinish := by
  intro event member isFinish
  have reads := runs.issued (issues_loop (fun _ => hashChunk_issues) fuel ())
    event member
  rw [isFinish] at reads
  exact reads

/-- The result of a calculation against its trace. -/
def HashResult (sha256 : List UInt8 → Digest) (content : List UInt8)
    (trace : Trace) (rc : Int) (hash : Digest) : Prop :=
  (rc < 0 ∧ ∃ event ∈ trace, HashFails event) ∨
    (rc = 0 ∧ (∀ event ∈ trace, ¬ HashFails event) ∧ hash = sha256 content)

theorem abortHash_ensures {rc : Int} {outputSha256 : Digest} :
    Ensures (environment sha256) (abortHash rc outputSha256) world
      fun trace result _ => result = (rc, outputSha256) ∧
        ∀ event ∈ trace, event.call ≠ .psaHashFinish := by
  unfold abortHash
  simp only [ensures_bind, ensures_request, ensures_pure]
  rintro _ _ - _ _ -
  simp

theorem hashOpenedFile_ensures {fuel : Nat} {outputSha256 : Digest}
    (start : Hashing path content 0 [] world) :
    Ensures (environment sha256) (hashOpenedFile fuel outputSha256) world
      fun trace result _ =>
        HashResult sha256 content trace result.1 result.2 ∧
          result.2 = trace.foldl bufferAfter outputSha256 := by
  unfold hashOpenedFile
  rw [ensures_bind]
  intro reading ended middle loopRuns
  have means := hashLoop_ensures start _ _ _ loopRuns
  have readingKeeps : reading.foldl bufferAfter outputSha256 = outputSha256 :=
    foldl_bufferAfter (hashLoop_unfinished loopRuns)
  cases ended with
  | updateFailed =>
      refine abortHash_ensures.mono ?_
      rintro closing _ after ⟨rfl, notFinished⟩
      obtain ⟨event, member, fails⟩ := means
      refine ⟨.inl ⟨neg_eIo, event, by simp [member], fails⟩, ?_⟩
      rw [List.foldl_append, readingKeeps, foldl_bufferAfter notFinished]
  | bytesRead value =>
      dsimp only
      split
      case isTrue negative =>
        refine abortHash_ensures.mono ?_
        rintro closing _ after ⟨rfl, notFinished⟩
        rcases means with ⟨-, event, member, fails⟩ | ⟨zero, -⟩
        · refine ⟨.inl ⟨negative, event, by simp [member], fails⟩, ?_⟩
          rw [List.foldl_append, readingKeeps, foldl_bufferAfter notFinished]
        · omega
      case isFalse notNegative =>
      obtain ⟨noFailure, absorbed⟩ :=
        (means.resolve_left fun failed => notNegative failed.1).2
      simp only [ensures_bind, ensures_request]
      rintro ⟨status, hash⟩ _ ⟨rfl, finished⟩
      dsimp only
      split
      case isTrue failed =>
        refine abortHash_ensures.mono ?_
        rintro closing _ after ⟨rfl, notFinished⟩
        refine ⟨.inl ⟨neg_eIo, ⟨.psaHashFinish, (status, hash)⟩, by simp,
          failed⟩, ?_⟩
        rw [List.foldl_append, List.foldl_append, foldl_bufferAfter notFinished]
        rfl
      case isFalse succeeded =>
      have accepted : status = 0 := not_not.mp succeeded
      simp only [ensures_bind, ensures_request, ensures_pure]
      rintro _ after -
      refine ⟨.inr ⟨rfl, ?_, by rw [finished accepted, absorbed]⟩, ?_⟩
      · intro event member
        simp only [List.mem_append, List.mem_singleton] at member
        rcases member with member | rfl | rfl | member
        · exact noFailure event member
        · exact fun fails => fails accepted
        · exact not_false
        · exact absurd member List.not_mem_nil
      · rw [List.foldl_append]
        rfl

/-- The calculation fails before it reads anything, or it reads the file with
the hash operation set up. -/
theorem calculateFileSha256_cases {fuel : Nat} {outputSha256 : Digest} :
    Ensures (environment sha256) (calculateFileSha256 fuel path outputSha256)
      world fun trace result after =>
        (result.1 < 0 ∧ result.2 = outputSha256 ∧
            (∃ event ∈ trace, HashFails event) ∧
            ∀ event ∈ trace, event.call ≠ .psaHashFinish) ∨
          ∃ content opening rest ready, world.files path = some content ∧
            (∀ event ∈ opening,
              ¬ HashFails event ∧ event.call ≠ .psaHashFinish) ∧
            trace = opening ++ rest ∧ Hashing path content 0 [] ready ∧
            Runs (environment sha256) (hashOpenedFile fuel outputSha256) ready
              rest result after := by
  unfold calculateFileSha256
  simp only [ensures_bind, ensures_request]
  rintro (status : Int) started rfl
  split
  case isTrue failed =>
    rw [ensures_pure]
    refine .inl ⟨neg_eIo, rfl, ⟨⟨.psaCryptoInit, status⟩, by simp, failed⟩, ?_⟩
    simp
  case isFalse initialised =>
  simp only [ensures_bind, ensures_request]
  rintro (rc : Int) opened answered
  split
  case isTrue failed =>
    rw [ensures_pure]
    refine .inl ⟨failed, rfl, ⟨⟨.fsOpen path { read := true }, rc⟩, by simp,
      rfl, failed⟩, ?_⟩
    simp
  case isFalse openOk =>
  simp only [environment, openOk, if_false] at answered
  obtain ⟨isFile, rfl⟩ := answered
  obtain ⟨content, found⟩ := Option.isSome_iff_exists.mp (isFile trivial)
  simp only [ensures_bind, ensures_request]
  rintro (setup : Int) ready answered
  split
  case isTrue failed =>
    simp only [ensures_bind, ensures_request, ensures_pure]
    rintro _ _ -
    refine .inl ⟨neg_eIo, trivial, ⟨⟨.psaHashSetup, setup⟩, by simp, failed⟩,
      ?_⟩
    simp
  case isFalse setupOk =>
  have accepted : setup = 0 := not_not.mp setupOk
  simp only [environment, accepted, if_true] at answered
  subst answered
  intro rest result after runs
  refine .inr ⟨content, [⟨.psaCryptoInit, status⟩,
    ⟨.fsOpen path { read := true }, rc⟩, ⟨.psaHashSetup, setup⟩], rest, _,
    found, ?_, rfl, Hashing.start found, runs⟩
  intro event member
  simp only [List.mem_cons, List.not_mem_nil, or_false] at member
  rcases member with rfl | rfl | rfl
  · exact ⟨fun fails => initialised fails, by simp⟩
  · exact ⟨fun fails => openOk fails.2, by simp⟩
  · exact ⟨fun fails => fails accepted, by simp⟩

/-- The checksum of an existing file. -/
theorem calculateFileSha256_ensures {fuel : Nat} {outputSha256 : Digest}
    (found : world.files path = some content) :
    Ensures (environment sha256) (calculateFileSha256 fuel path outputSha256)
      world fun trace result _ =>
        HashResult sha256 content trace result.1 result.2 ∧
          result.2 = trace.foldl bufferAfter outputSha256 := by
  refine calculateFileSha256_cases.mono fun trace result after cases => ?_
  rcases cases with ⟨negative, kept, failure, unfinished⟩ |
    ⟨content', opening, rest, ready, found', succeeded, rfl, start, runs⟩
  · exact ⟨.inl ⟨negative, failure⟩,
      kept.trans (foldl_bufferAfter unfinished).symm⟩
  obtain rfl : content' = content := Option.some.inj (found'.symm.trans found)
  obtain ⟨hashResult, buffer⟩ := hashOpenedFile_ensures start _ _ _ runs
  refine ⟨?_, ?_⟩
  · rcases hashResult with ⟨negative, event, member, fails⟩ |
      ⟨zero, noFailure, isHash⟩
    · exact .inl ⟨negative, event, List.mem_append_right _ member, fails⟩
    · refine .inr ⟨zero, fun event member => ?_, isHash⟩
      rcases List.mem_append.mp member with member | member
      · exact (succeeded event member).1
      · exact noFailure event member
  · rw [List.foldl_append,
      foldl_bufferAfter fun event member => (succeeded event member).2]
    exact buffer

theorem hashChunk_completes :
    Completes (environment sha256) (hashChunk ()) world := by
  unfold hashChunk
  apply completes_request_bind
  rintro (⟨code, negative⟩ | ⟨bytes, fits⟩) after -
  · exact completes_pure
  · dsimp only
    split
    · exact completes_pure
    · refine completes_request_bind fun _ _ _ => ?_
      split <;> exact completes_pure

theorem hashLoop_completes {fuel : Nat}
    (start : Hashing path content 0 [] world) (enough : content.length < fuel) :
    Completes (environment sha256) (loop hashChunk fuel ()) world := by
  -- What is left of the file beyond the position shrinks with every turn.
  refine completes_loop
    (fun _ world => ∃ position, Hashing path content position [] world)
    (fun _ world => content.length - (world.file.map OpenFile.position).getD 0)
    (fun _ _ _ => hashChunk_completes) ?_ ⟨0, start⟩ (by omega)
  rintro _ world ⟨position, hashing⟩
  refine (hashChunk_ensures hashing).mono ?_
  rintro more step after holds _ rfl
  obtain ⟨next, further, after⟩ := holds
  refine ⟨⟨next, after.opened, after.found, after.inside, after.absorbed,
    by simp⟩, ?_⟩
  have := after.inside
  simp only [after.opened, hashing.opened, Option.map_some, Option.getD_some]
  omega

/-- A fuel beyond the length of the file never cuts the calculation short. -/
theorem calculateFileSha256_completes {fuel : Nat} {outputSha256 : Digest}
    (enough : ∀ content, world.files path = some content →
      content.length < fuel) :
    Completes (environment sha256)
      (calculateFileSha256 fuel path outputSha256) world := by
  have aborts {rc : Int} {output : Digest} {world : World} :
      Completes (environment sha256) (abortHash rc output) world :=
    fun _ _ _ _ _ _ => completes_pure
  unfold calculateFileSha256
  apply completes_request_bind
  rintro (status : Int) started rfl
  split
  · exact completes_pure
  apply completes_request_bind
  rintro (rc : Int) opened answered
  split
  · exact completes_pure
  case isFalse openOk =>
  simp only [environment, openOk, if_false] at answered
  obtain ⟨isFile, rfl⟩ := answered
  obtain ⟨content, found⟩ := Option.isSome_iff_exists.mp (isFile trivial)
  apply completes_request_bind
  rintro (setup : Int) ready answered
  split
  · exact completes_request_bind fun _ _ _ => completes_pure
  case isFalse setupOk =>
  have accepted : setup = 0 := not_not.mp setupOk
  simp only [environment, accepted, if_true] at answered
  subst answered
  unfold hashOpenedFile
  refine (hashLoop_completes (Hashing.start found)
    (enough content found)).bind ?_
  rintro _ (value | _) after -
  · dsimp only
    split
    · exact aborts
    apply completes_request_bind
    rintro ⟨status, hash⟩ closing -
    dsimp only
    split
    · exact aborts
    · exact completes_request_bind fun _ _ _ => completes_pure
  · exact aborts

end Runs

end HttpDl

end SzpiSta
