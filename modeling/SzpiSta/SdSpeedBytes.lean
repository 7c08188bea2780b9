import SzpiSta.SdSpeed

/-!
# What a finished speed test has written and read

The test reports that it is finished exactly if no call failed.  By then it has
written the 32-bit product of the size, and it has read that back unless a read
brought nothing; so a finished test has handled all the bytes asked for exactly
if their number fits 32 bits and no read brought nothing.
-/

namespace SzpiSta

namespace SdSpeed

open ExternalCalls ExternalCalls.Program

abbrev Trace := List (Event Call.Answer)

/-- The bytes one call wrote. -/
def Event.written : Event Call.Answer → Nat
  | ⟨.fsWrite _, .stored ret _⟩ => ret
  | _ => 0

/-- The bytes one call read. -/
def Event.readBack : Event Call.Answer → Nat
  | ⟨.fsRead _, .data buf _⟩ => buf.length
  | _ => 0

/-- The bytes of all calls of a trace. -/
def bytesIn (bytes : Event Call.Answer → Nat) : Trace → Nat
  | [] => 0
  | event :: trace => bytes event + bytesIn bytes trace

/-- Answers that make the test fail. -/
def Fails : Event Call.Answer → Prop
  | ⟨.kMalloc _, buf⟩ => buf = false
  | ⟨.fsOpen _ _, ret⟩ => ret < 0
  | ⟨.fsWrite _, .error _ _⟩ => True
  | ⟨.fsRead _, .error _ _⟩ => True
  | _ => False

/-- A read that brings nothing, as at the end of the file. -/
def BringsNothing : Event Call.Answer → Prop
  | ⟨.fsRead _, .data buf _⟩ => buf.length = 0
  | _ => False

def reportsFinished : Event Call.Answer :=
  ⟨.shellPrint (cString "==== Speed Test Finished ===="), ()⟩

section Counting

variable {bytes : Event Call.Answer → Nat}

@[simp]
theorem bytesIn_nil : bytesIn bytes [] = 0 :=
  rfl

@[simp]
theorem bytesIn_cons {event : Event Call.Answer} {trace : Trace} :
    bytesIn bytes (event :: trace) = bytes event + bytesIn bytes trace :=
  rfl

@[simp]
theorem bytesIn_append {first second : Trace} :
    bytesIn bytes (first ++ second) =
      bytesIn bytes first + bytesIn bytes second := by
  induction first with
  | nil => simp
  | cons event first ih =>
      rw [List.cons_append, bytesIn_cons, bytesIn_cons, ih, Nat.add_assoc]

/-- A trace in which nothing fails, with the bytes it wrote and read and whether
each read brought something. -/
structure Tally (written readBack : Nat) (eachBrings : Prop) (trace : Trace) :
    Prop where
  written : bytesIn Event.written trace = written
  readBack : bytesIn Event.readBack trace = readBack
  noFailure : ∀ event ∈ trace, ¬ Fails event
  brings : (∀ event ∈ trace, ¬ BringsNothing event) ↔ eachBrings

theorem Tally.nil : Tally 0 0 True [] :=
  ⟨rfl, rfl, by simp, by simp⟩

theorem Tally.append {first second : Trace}
    {written readBack written' readBack' : Nat} {brings brings' : Prop}
    (tally : Tally written readBack brings first)
    (tally' : Tally written' readBack' brings' second) :
    Tally (written + written') (readBack + readBack') (brings ∧ brings')
      (first ++ second) := by
  refine ⟨?_, ?_, ?_, ?_⟩
  · rw [bytesIn_append, tally.written, tally'.written]
  · rw [bytesIn_append, tally.readBack, tally'.readBack]
  · exact List.forall_mem_append.mpr ⟨tally.noFailure, tally'.noFailure⟩
  · rw [List.forall_mem_append, tally.brings, tally'.brings]

/-- A call that succeeds without writing or reading. -/
structure Neutral (event : Event Call.Answer) : Prop where
  written : Event.written event = 0
  readBack : Event.readBack event = 0
  accepted : ¬ Fails event
  noRead : ¬ BringsNothing event

variable {trace : Trace} {written readBack : Nat} {brings : Prop}

theorem Tally.after {event : Event Call.Answer} (neutral : Neutral event)
    (tally : Tally written readBack brings trace) :
    Tally written readBack brings ([event] ++ trace) := by
  have alone : Tally 0 0 True [event] := by
    refine ⟨neutral.written, neutral.readBack, ?_, ?_⟩
    · simpa using neutral.accepted
    · simpa using neutral.noRead
  simpa using alone.append tally

/-- The calls that neither write nor read and cannot fail the test. -/
def Silent : Call → Prop
  | .kMalloc _ | .fsOpen _ _ | .fsWrite _ | .fsRead _ => False
  | _ => True

theorem neutral_of_silent {event : Event Call.Answer}
    (silent : Silent event.call) : Neutral event := by
  rcases event with ⟨call, answer⟩
  cases call <;> first
    | exact silent.elim
    | exact ⟨rfl, rfl, not_false, not_false⟩

theorem Tally.of_silent (silent : ∀ event ∈ trace, Silent event.call) :
    Tally 0 0 True trace := by
  induction trace with
  | nil => exact .nil
  | cons event trace ih =>
      have rest := ih fun later member => silent later (.tail _ member)
      exact rest.after (neutral_of_silent (silent event (.head _)))

theorem Tally.write {count : UInt32} {ret : Nat}
    (tally : Tally written readBack brings trace) (fits : ret ≤ count.toNat) :
    Tally (written + ret) readBack brings
      (trace ++ [⟨.fsWrite count, .stored ret fits⟩]) := by
  have alone : Tally ret 0 True [⟨.fsWrite count, .stored ret fits⟩] := by
    refine ⟨rfl, rfl, ?_, ?_⟩
    · simp [Fails]
    · simp [BringsNothing]
  simpa using tally.append alone

theorem Tally.read {count : UInt32} {buf : List UInt8}
    (tally : Tally written readBack brings trace)
    (fits : buf.length ≤ count.toNat) :
    Tally written (readBack + buf.length) (brings ∧ buf.length ≠ 0)
      (trace ++ [⟨.fsRead count, .data buf fits⟩]) := by
  have alone : Tally 0 buf.length (buf.length ≠ 0)
      [⟨.fsRead count, .data buf fits⟩] := by
    refine ⟨rfl, rfl, ?_, ?_⟩
    · simp [Fails]
    · simp [BringsNothing]
  simpa using tally.append alone

end Counting

section Loops

variable {World : Type} {env : Environment Call.Answer World} {world : World}
variable {bufSize total done : UInt32} {trace : Trace} {fuel : Nat}

/-- A chunk more keeps the count within the total. -/
theorem add_chunk {amount : Nat} (before : done < total)
    (fits : amount ≤ (chunk bufSize total done).toNat) :
    (done + UInt32.ofNat amount).toNat = done.toNat + amount ∧
      done.toNat + amount ≤ total.toNat := by
  have within := Nat.le_trans fits (chunk_le bufSize total done)
  have left := UInt32.toNat_sub_of_le _ _ (UInt32.le_of_lt before)
  have := total.toNat_lt
  have := UInt32.lt_iff_toNat_lt.mp before
  rw [UInt32.toNat_add, UInt32.toNat_ofNat']
  omega

/-- How the write loop ends. -/
def WriteEnded (total : UInt32) (trace : Trace) : Except Int UInt32 → Prop
  | .error ret => ret < 0 ∧ ∃ event ∈ trace, Fails event
  | .ok _ => Tally total.toNat 0 True trace

theorem writeTurn_tally (inside : done ≤ total)
    (tally : Tally done.toNat 0 True trace) :
    Ensures env (writeTurn bufSize total done) world fun more step _ =>
      step.Meets
        (fun next => next ≤ total ∧ Tally next.toNat 0 True (trace ++ more))
        (fun ended => WriteEnded total (trace ++ more) ended) := by
  unfold writeTurn
  split
  case isFalse complete =>
    have all : done = total := UInt32.le_antisymm inside (UInt32.not_lt.mp complete)
    rw [ensures_pure, List.append_nil]
    exact all ▸ tally
  case isTrue before =>
  refine ensures_bind.mpr (ensures_request.mpr ?_)
  rintro (⟨ret, negative⟩ | ⟨ret, fits⟩) after -
  · refine ensures_pure.mpr ⟨negative, ?_⟩
    exact ⟨⟨.fsWrite (chunk bufSize total done), .error ret negative⟩, by simp,
      trivial⟩
  · obtain ⟨sum, within⟩ := add_chunk before fits
    rw [ensures_pure, List.append_nil]
    refine ⟨?_, ?_⟩
    · rw [UInt32.le_iff_toNat_le, sum]
      exact within
    · rw [sum]
      exact tally.write fits

theorem writeLoop_tally :
    Ensures env (loop (writeTurn bufSize total) fuel 0) world
      fun trace ended _ => WriteEnded total trace ended := by
  refine ensures_loop
    (fun done trace _ => done ≤ total ∧ Tally done.toNat 0 True trace) ?_ fuel ?_
  · rintro done trace world ⟨inside, tally⟩
    exact writeTurn_tally inside tally
  · exact ⟨UInt32.zero_le, Tally.nil⟩

/-- How the read loop ends: with all bytes, or short after a read that brought
nothing. -/
def ReadEnded (total : UInt32) (trace : Trace) : Except Int UInt32 → Prop
  | .error ret => ret < 0 ∧ ∃ event ∈ trace, Fails event
  | .ok bytesRead =>
      Tally 0 bytesRead.toNat (bytesRead = total) trace

theorem readTurn_tally (inside : done ≤ total)
    (tally : Tally 0 done.toNat True trace) :
    Ensures env (readTurn bufSize total done) world fun more step _ =>
      step.Meets
        (fun next => next ≤ total ∧ Tally 0 next.toNat True (trace ++ more))
        (fun ended => ReadEnded total (trace ++ more) ended) := by
  unfold readTurn
  split
  case isFalse complete =>
    have all : done = total := UInt32.le_antisymm inside (UInt32.not_lt.mp complete)
    rw [ensures_pure, List.append_nil]
    simpa [ReadEnded, all] using tally
  case isTrue before =>
  refine ensures_bind.mpr (ensures_request.mpr ?_)
  rintro (⟨ret, negative⟩ | ⟨buf, fits⟩) after -
  · refine ensures_pure.mpr ⟨negative, ?_⟩
    exact ⟨⟨.fsRead (chunk bufSize total done), .error ret negative⟩, by simp,
      trivial⟩
  have further := tally.read fits
  dsimp only
  split
  case isTrue nothing =>
    have short : done ≠ total := UInt32.ne_of_lt before
    rw [ensures_pure, List.append_nil]
    simpa [ReadEnded, nothing, short] using further
  case isFalse something =>
    obtain ⟨sum, within⟩ := add_chunk before fits
    rw [ensures_pure, List.append_nil]
    refine ⟨?_, ?_⟩
    · rw [UInt32.le_iff_toNat_le, sum]
      exact within
    · rw [sum]
      simpa [something] using further

theorem readLoop_tally :
    Ensures env (loop (readTurn bufSize total) fuel 0) world
      fun trace ended _ => ReadEnded total trace ended := by
  refine ensures_loop
    (fun done trace _ => done ≤ total ∧ Tally 0 done.toNat True trace) ?_ fuel ?_
  · rintro done trace world ⟨inside, tally⟩
    exact readTurn_tally inside tally
  · exact ⟨UInt32.zero_le, Tally.nil⟩

end Loops

section Command

variable {World : Type} {env : Environment Call.Answer World} {world : World}
variable {bufSize total : UInt32} {fuel : Nat} {filePath : CString}
variable {argv : List CString}

/-- How a part of the test ends that has `written` bytes to write and `total`
to read. -/
inductive SpeedOutcome (written : Nat) (total : UInt32) (trace : Trace) :
    Int → Prop where
  | failed {ret : Int} (negative : ret < 0)
      (failure : ∃ event ∈ trace, Fails event) :
      SpeedOutcome written total trace ret
  | finished (bytesRead : UInt32)
      (tally : Tally written bytesRead.toNat (bytesRead = total) trace)
      (reported : reportsFinished ∈ trace) :
      SpeedOutcome written total trace 0

theorem SpeedOutcome.after {opening rest : Trace} {written written' : Nat}
    {ret : Int} (tally : Tally written 0 True opening)
    (outcome : SpeedOutcome written' total rest ret) :
    SpeedOutcome (written + written') total (opening ++ rest) ret := by
  cases outcome with
  | failed negative failure =>
      obtain ⟨event, member, fails⟩ := failure
      exact .failed negative ⟨event, List.mem_append_right _ member, fails⟩
  | finished bytesRead tally' reported =>
      refine .finished bytesRead ?_ (List.mem_append_right _ reported)
      simpa using tally.append tally'

/-- A file that could be opened, and the clock. -/
theorem opening_tally (filePath : CString) (flags : OpenFlags) {ret : Int}
    (startTime : Int) (accepted : ¬ ret < 0) :
    Tally 0 0 True
      [⟨.fsOpen filePath flags, ret⟩, ⟨.kUptimeGet, startTime⟩] := by
  have clock : Tally 0 0 True [⟨.kUptimeGet, startTime⟩] :=
    .of_silent (by simp [Silent])
  exact clock.after ⟨rfl, rfl, accepted, not_false⟩

theorem readTest_outcome :
    Ensures env (readTest fuel filePath bufSize total) world
      fun trace ret _ => SpeedOutcome 0 total trace ret := by
  unfold readTest
  simp only [ensures_bind, ensures_request]
  rintro (ret : Int) opened -
  split
  case isTrue refused =>
    simp only [ensures_bind, ensures_request, ensures_pure]
    rintro _ _ - _ _ -
    exact .failed refused
      ⟨⟨.fsOpen filePath { read := true }, ret⟩, by simp, refused⟩
  case isFalse accepted =>
  simp only [ensures_bind, ensures_request]
  rintro startTime timed - reading ended read readRuns
  have readEnded := readLoop_tally _ _ _ readRuns
  cases ended with
  | error ret =>
      obtain ⟨negative, event, member, fails⟩ := readEnded
      simp only [ensures_bind, ensures_request, ensures_pure]
      rintro _ _ - _ _ - _ _ -
      exact .failed negative ⟨event, by simp [member], fails⟩
  | ok bytesRead =>
      simp only [ensures_bind, ensures_request, ensures_pure]
      rintro endTime _ - _ _ - _ _ - unlinked _ - _ _ - _ _ -
      have closing : Tally 0 0 True
          [⟨.kUptimeGet, endTime⟩, ⟨.fsClose, ()⟩,
            ⟨.reportSpeed bytesRead (duration startTime endTime), ()⟩,
            ⟨.fsUnlink filePath, unlinked⟩, ⟨.kFree, ()⟩, reportsFinished] :=
        .of_silent (by simp [Silent, reportsFinished])
      have finished : SpeedOutcome 0 total (reading ++ _) 0 :=
        .finished bytesRead (by simpa using readEnded.append closing)
          (by simp)
      have outcome := finished.after
        (opening_tally filePath { read := true } startTime accepted)
      simpa [reportsFinished] using outcome

theorem writeTest_outcome :
    Ensures env (writeTest fuel filePath bufSize total) world
      fun trace ret _ => SpeedOutcome total.toNat total trace ret := by
  unfold writeTest
  simp only [ensures_bind, ensures_request]
  rintro (ret : Int) opened -
  split
  case isTrue refused =>
    simp only [ensures_bind, ensures_request, ensures_pure]
    rintro _ _ - _ _ -
    exact .failed refused
      ⟨⟨.fsOpen filePath { create := true, write := true }, ret⟩, by simp,
        refused⟩
  case isFalse accepted =>
  simp only [ensures_bind, ensures_request]
  rintro startTime timed - writing ended written writeRuns
  have writeEnded := writeLoop_tally _ _ _ writeRuns
  cases ended with
  | error ret =>
      obtain ⟨negative, event, member, fails⟩ := writeEnded
      simp only [ensures_bind, ensures_request, ensures_pure]
      rintro _ _ - _ _ - _ _ -
      exact .failed negative ⟨event, by simp [member], fails⟩
  | ok bytesWritten =>
      simp only [ensures_bind, ensures_request]
      rintro synced _ - endTime _ - _ _ - _ closed -
      intro rest ret after restRuns
      have closing : Tally 0 0 True
          [⟨.fsSync, synced⟩, ⟨.kUptimeGet, endTime⟩, ⟨.fsClose, ()⟩,
            ⟨.reportSpeed bytesWritten (duration startTime endTime), ()⟩] :=
        .of_silent (by simp [Silent])
      have front := (opening_tally filePath { create := true, write := true }
        startTime accepted).append (Tally.append writeEnded closing)
      have outcome := (readTest_outcome _ _ _ restRuns).after
        (by simpa using front)
      simpa using outcome

/-- Sizes that are refused. -/
def Rejected (argv : List CString) : Prop := sizeMb argv = 0 ∨ bufKb argv = 0

theorem cmdSdSpeed_outcome :
    Ensures env (cmdSdSpeed fuel argv) world fun trace ret _ =>
      (Rejected argv ∧ ret < 0) ∨
        (¬ Rejected argv ∧ SpeedOutcome (totalBytes (sizeMb argv)).toNat
          (totalBytes (sizeMb argv)) trace ret) := by
  unfold cmdSdSpeed
  dsimp only
  split
  case isTrue rejected =>
    simp only [ensures_bind, ensures_request, ensures_pure]
    rintro _ _ -
    exact .inl ⟨rejected, by decide⟩
  case isFalse accepted =>
  simp only [ensures_bind, ensures_request]
  rintro (buf : Bool) allocated -
  split
  case isTrue noBuffer =>
    simp only [ensures_bind, ensures_request, ensures_pure]
    rintro _ _ -
    refine .inr ⟨accepted, .failed (by decide) ?_⟩
    exact ⟨⟨.kMalloc (bufSize (bufKb argv)), buf⟩, by simp,
      Bool.eq_false_iff.mpr noBuffer⟩
  case isFalse hasBuffer =>
  simp only [ensures_bind, ensures_request]
  rintro unlinked _ - rest ret after restRuns
  refine .inr ⟨accepted, ?_⟩
  have unlinking : Tally 0 0 True
      [⟨.fsUnlink (argv[3]?.getD defaultTestFile), unlinked⟩] :=
    .of_silent (by simp [Silent])
  have allocating : Neutral ⟨.kMalloc (bufSize (bufKb argv)), buf⟩ :=
    ⟨rfl, rfl, fun failed => hasBuffer (Bool.eq_false_iff.mp failed), not_false⟩
  have outcome := (writeTest_outcome _ _ _ restRuns).after
    (unlinking.after allocating)
  simpa using outcome

end Command

section Finished

/-- The test has written and read back all the bytes asked for. -/
def AllBytes (sizeMb : UInt32) (trace : Trace) : Prop :=
  bytesIn Event.written trace = sizeMb.toNat * 1048576 ∧
    bytesIn Event.readBack trace = sizeMb.toNat * 1048576

/-- The product that sets the loop bounds is the number of bytes asked for
exactly if it fits 32 bits. -/
theorem totalBytes_eq_iff {sizeMb : UInt32} :
    (totalBytes sizeMb).toNat = sizeMb.toNat * 1048576 ↔ sizeMb < 4096 := by
  rw [totalBytes, UInt32.toNat_mul, UInt32.toNat_mul, UInt32.lt_iff_toNat_lt]
  have := sizeMb.toNat_lt
  have kibi : (1024 : UInt32).toNat = 1024 := rfl
  have limit : (4096 : UInt32).toNat = 4096 := rfl
  rw [kibi, limit]
  omega

theorem Tally.allBytes_iff {sizeMb bytesRead : UInt32} {trace : Trace}
    (tally : Tally (totalBytes sizeMb).toNat bytesRead.toNat
      (bytesRead = totalBytes sizeMb) trace) :
    AllBytes sizeMb trace ↔
      sizeMb < 4096 ∧ ∀ event ∈ trace, ¬ BringsNothing event := by
  rw [AllBytes, tally.written, tally.readBack, tally.brings, totalBytes_eq_iff]
  apply and_congr_right
  intro fits
  rw [← totalBytes_eq_iff.mpr fits]
  exact UInt32.toNat_inj

/-- For all sizes and whatever the calls answer: a test that returns 0 and
reports that it is finished has written and read all the bytes asked for,
exactly if it is rejected, if a call fails, or if their number fits 32 bits and
no read brings nothing. -/
theorem finished_means_all_bytes_iff {World : Type}
    (env : Environment Call.Answer World) (fuel : Nat) (argv : List CString)
    (world : World) :
    Ensures env (cmdSdSpeed fuel argv) world fun trace ret _ =>
      (ret = 0 → reportsFinished ∈ trace → AllBytes (sizeMb argv) trace) ↔
        Rejected argv ∨ (∃ event ∈ trace, Fails event) ∨
          (sizeMb argv < 4096 ∧ ∀ event ∈ trace, ¬ BringsNothing event) := by
  intro trace ret after runs
  rcases cmdSdSpeed_outcome _ _ _ runs with ⟨rejected, negative⟩ |
    ⟨accepted, outcome⟩
  · exact iff_of_true (fun zero => by omega) (.inl rejected)
  · rw [or_iff_right accepted]
    cases outcome with
    | failed negative failure =>
        exact iff_of_true (fun zero => by omega) (.inl failure)
    | finished bytesRead tally reported =>
        have noFailure : ¬ ∃ event ∈ trace, Fails event := by
          rintro ⟨event, member, fails⟩
          exact tally.noFailure event member fails
        rw [or_iff_right noFailure, ← tally.allBytes_iff]
        exact ⟨fun all => all rfl reported, fun all _ _ => all⟩

/-- `sd_speed 4096`. -/
def largeTest : List CString := [cString "sd_speed", cString "4096"]

/-- Its calls: with a product that wraps to 0 there is nothing to write or to
read. -/
def largeTrace : Trace :=
  [⟨.kMalloc (bufSize 16), true⟩, ⟨.fsUnlink defaultTestFile, (0 : Int)⟩,
    ⟨.fsOpen defaultTestFile { create := true, write := true }, (0 : Int)⟩,
    ⟨.kUptimeGet, (0 : Int)⟩, ⟨.fsSync, (0 : Int)⟩, ⟨.kUptimeGet, (0 : Int)⟩,
    ⟨.fsClose, ()⟩, ⟨.reportSpeed 0 1, ()⟩,
    ⟨.fsOpen defaultTestFile { read := true }, (0 : Int)⟩,
    ⟨.kUptimeGet, (0 : Int)⟩, ⟨.kUptimeGet, (0 : Int)⟩, ⟨.fsClose, ()⟩,
    ⟨.reportSpeed 0 1, ()⟩, ⟨.fsUnlink defaultTestFile, (0 : Int)⟩,
    ⟨.kFree, ()⟩, reportsFinished]

/-- A test of 4096 MB is finished at once. -/
theorem large_test_handles_nothing :
    Runs cardCalls (cmdSdSpeed 1 largeTest) roomyCard largeTrace 0 roomyCard ∧
      reportsFinished ∈ largeTrace ∧
      ¬ AllBytes (sizeMb largeTest) largeTrace := by
  have size : sizeMb largeTest = 4096 := by decide
  have buffer : bufKb largeTest = 16 := by decide
  have wraps : totalBytes 4096 = 0 := by decide
  refine ⟨?_, by simp [largeTrace], ?_⟩
  · unfold cmdSdSpeed
    rw [size, buffer, wraps]
    iterate 16
      apply Runs.call
      · exact rfl
    exact .done _ _
  · rw [size]
    rintro ⟨allWritten, -⟩
    exact absurd allWritten (by decide)

end Finished

end SdSpeed

end SzpiSta
