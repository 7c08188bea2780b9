import SzpiSta.CStrings
import SzpiSta.ExternalCalls
import SzpiSta.FileCalls

/-!
# Measuring the speed of the card

The command of sd_speed.c.  Its read loop stops at a read that brings nothing.
Its write loop has no such test, so it goes round without progress exactly if a
write stores nothing: on a full card, or with a buffer whose size wraps to zero.

The speeds are floating-point numbers that are only printed; the bytes and the
time they are computed from stand for them.  So does the count of a write for its
data.
-/

namespace SzpiSta

namespace SdSpeed

open CStrings ExternalCalls ExternalCalls.Program

inductive Call where
  | shellError (text : CString)
  | shellPrint (text : CString)
  | reportSpeed (bytes : UInt32) (durationMs : Int)
  | kMalloc (size : UInt32)
  | fsUnlink (path : CString)
  | fsOpen (path : CString) (flags : OpenFlags)
  | kUptimeGet
  | fsWrite (count : UInt32)
  | fsSync
  | fsRead (count : UInt32)
  | fsClose
  | kFree

@[reducible]
def Call.Answer : Call → Type
  | .kMalloc _ => Bool
  | .fsUnlink _ => Int
  | .fsOpen _ _ => Int
  | .kUptimeGet => Int
  | .fsWrite count => WriteAnswer count.toNat
  | .fsSync => Int
  | .fsRead count => ReadAnswer count.toNat
  | _ => Unit

abbrev SpeedProgram := Program Call Call.Answer

abbrev ask (call : Call) : SpeedProgram call.Answer := request call

def defaultTestFile : CString := cString "/SD:/speed_test.bin"

def bufSize (bufKb : UInt32) : UInt32 := bufKb * 1024

def totalBytes (sizeMb : UInt32) : UInt32 := sizeMb * 1024 * 1024

/-- The chunk of a turn that has handled `done` bytes. -/
def chunk (bufSize total done : UInt32) : UInt32 := min (total - done) bufSize

/-- One turn of the write loop.  It leaves with the bytes written where the
condition fails, and with the error where the source returns. -/
def writeTurn (bufSize total bytesWritten : UInt32) :
    SpeedProgram (LoopStep UInt32 (Except Int UInt32)) := do
  if bytesWritten < total then
    match ← ask (.fsWrite (chunk bufSize total bytesWritten)) with
    | .error ret _ => return .leave (.error ret)
    | .stored ret _ => return .again (bytesWritten + UInt32.ofNat ret)
  else return .leave (.ok bytesWritten)

def readTurn (bufSize total bytesRead : UInt32) :
    SpeedProgram (LoopStep UInt32 (Except Int UInt32)) := do
  if bytesRead < total then
    match ← ask (.fsRead (chunk bufSize total bytesRead)) with
    | .error ret _ => return .leave (.error ret)
    | .data buf _ =>
      if buf.length = 0 then return .leave (.ok bytesRead)
      else return .again (bytesRead + UInt32.ofNat buf.length)
  else return .leave (.ok bytesRead)

/-- `write_duration_ms` and `read_duration_ms`. -/
def duration (startTime endTime : Int) : Int :=
  if endTime - startTime ≤ 0 then 1 else endTime - startTime

def readTest (fuel : Nat) (filePath : CString) (bufSize total : UInt32) :
    SpeedProgram Int := do
  let ret ← ask (.fsOpen filePath { read := true })
  if ret < 0 then
    ask (.shellError (cString s!"Failed to open file for reading: {ret}"))
    ask .kFree
    return ret
  let startTime ← ask .kUptimeGet
  match ← loop (readTurn bufSize total) fuel 0 with
  | .error ret =>
      ask (.shellError (cString s!"Read error occurred: {ret}"))
      ask .fsClose
      ask .kFree
      return ret
  | .ok bytesRead =>
      let endTime ← ask .kUptimeGet
      ask .fsClose
      ask (.reportSpeed bytesRead (duration startTime endTime))
      let _ ← ask (.fsUnlink filePath)
      ask .kFree
      ask (.shellPrint (cString "==== Speed Test Finished ===="))
      return 0

def writeTest (fuel : Nat) (filePath : CString) (bufSize total : UInt32) :
    SpeedProgram Int := do
  let ret ← ask (.fsOpen filePath { create := true, write := true })
  if ret < 0 then
    ask (.shellError (cString
      s!"Failed to open file for writing: {ret} (Is SD card mounted?)"))
    ask .kFree
    return ret
  let startTime ← ask .kUptimeGet
  match ← loop (writeTurn bufSize total) fuel 0 with
  | .error ret =>
      ask (.shellError (cString s!"Write error occurred: {ret}"))
      ask .fsClose
      ask .kFree
      return ret
  | .ok bytesWritten =>
      let _ ← ask .fsSync
      let endTime ← ask .kUptimeGet
      ask .fsClose
      ask (.reportSpeed bytesWritten (duration startTime endTime))
      readTest fuel filePath bufSize total

def sizeMb (argv : List CString) : UInt32 := (argv[1]?.map strtoul).getD 4

def bufKb (argv : List CString) : UInt32 := (argv[2]?.map strtoul).getD 16

def cmdSdSpeed (fuel : Nat) (argv : List CString) : SpeedProgram Int := do
  let filePath := argv[3]?.getD defaultTestFile
  if sizeMb argv = 0 ∨ bufKb argv = 0 then
    ask (.shellError (cString
      "Invalid parameters! Usage: sd_speed [size_MB] [buf_KB] [file_path]"))
    return -eInval
  let buf ← ask (.kMalloc (bufSize (bufKb argv)))
  if ¬ buf then
    ask (.shellError (cString
      "Error: Insufficient heap memory! Check CONFIG_HEAP_MEM_POOL_SIZE"))
    return -eNoMem
  let _ ← ask (.fsUnlink filePath)
  writeTest fuel filePath (bufSize (bufKb argv)) (totalBytes (sizeMb argv))

/-- The card: what each write and each read will bring for any count, and how
many of them there have been. -/
structure Card where
  writes : Nat → (count : Nat) → WriteAnswer count
  reads : Nat → (count : Nat) → ReadAnswer count
  written : Nat
  read : Nat

def Card.afterWrite (card : Card) : Card :=
  { card with written := card.written + 1 }

def Card.afterRead (card : Card) : Card := { card with read := card.read + 1 }

/-- The calls of the command.  What the other calls answer is open. -/
def cardCalls : Environment Call.Answer Card where
  answers before call answer after :=
    match call with
    | .fsWrite count =>
        answer = before.writes before.written count.toNat ∧
          after = before.afterWrite
    | .fsRead count =>
        answer = before.reads before.read count.toNat ∧
          after = before.afterRead
    | _ => after = before

/-- The loop ends, and every turn that goes round has less left to do. -/
structure Progresses (total : UInt32)
    (turn : UInt32 → SpeedProgram (LoopStep UInt32 (Except Int UInt32)))
    (card : Card) : Prop where
  ends : ∃ fuel, Completes cardCalls (loop turn fuel 0) card
  decreases : ∀ done between trace next after,
    Turns cardCalls turn 0 card done between →
    Runs cardCalls (turn done) between trace (.again next) after →
    total - next < total - done

/-- The bytes written after some writes, as long as the loop goes on. -/
def writtenAfter (bufSize total : UInt32)
    (writes : Nat → (count : Nat) → WriteAnswer count) : Nat → Option UInt32
  | 0 => some 0
  | n + 1 => do
      let bytesWritten ← writtenAfter bufSize total writes n
      if bytesWritten < total then
        match writes n (chunk bufSize total bytesWritten).toNat with
        | .error _ _ => none
        | .stored ret _ => some (bytesWritten + UInt32.ofNat ret)
      else none

/-- No write that is reached stores nothing. -/
def EachWriteStores (bufSize total : UInt32)
    (writes : Nat → (count : Nat) → WriteAnswer count) : Prop :=
  ∀ n bytesWritten, writtenAfter bufSize total writes n = some bytesWritten →
    bytesWritten < total → ∀ fits,
      writes n (chunk bufSize total bytesWritten).toNat ≠ .stored 0 fits

section Turn

variable {bufSize total done : UInt32} {card : Card}

theorem chunk_le (bufSize total done : UInt32) :
    (chunk bufSize total done).toNat ≤ (total - done).toNat := by
  unfold chunk
  rw [UInt32.min_def]
  split
  · exact Nat.le_refl _
  · rename_i larger
    have := UInt32.le_iff_toNat_le.not.mp larger
    omega

theorem chunk_pos (before : done < total) (buffer : 0 < bufSize) :
    0 < (chunk bufSize total done).toNat := by
  have left := UInt32.toNat_sub_of_le _ _ (UInt32.le_of_lt before)
  have := UInt32.lt_iff_toNat_lt.mp before
  unfold chunk
  rw [UInt32.min_def]
  split
  · omega
  · exact UInt32.lt_iff_toNat_lt.mp buffer

theorem left_toNat {amount : Nat} (before : done < total)
    (fits : amount ≤ (total - done).toNat) :
    (total - (done + UInt32.ofNat amount)).toNat =
      (total - done).toNat - amount := by
  have left := UInt32.toNat_sub_of_le _ _ (UInt32.le_of_lt before)
  have := total.toNat_lt
  have := UInt32.lt_iff_toNat_lt.mp before
  have sum : (done + UInt32.ofNat amount).toNat = done.toNat + amount := by
    rw [UInt32.toNat_add, UInt32.toNat_ofNat']
    omega
  have within : done + UInt32.ofNat amount ≤ total := by
    rw [UInt32.le_iff_toNat_le, sum]
    omega
  rw [UInt32.toNat_sub_of_le _ _ within, left, sum]
  omega

/-- A part of what is left makes it less if it is positive. -/
theorem left_lt_iff {amount : Nat} (before : done < total)
    (fits : amount ≤ (total - done).toNat) :
    total - (done + UInt32.ofNat amount) < total - done ↔ 0 < amount := by
  have left := UInt32.toNat_sub_of_le _ _ (UInt32.le_of_lt before)
  have := UInt32.lt_iff_toNat_lt.mp before
  rw [UInt32.lt_iff_toNat_lt, left_toNat before fits]
  omega

theorem ensures_writeTurn :
    Ensures cardCalls (writeTurn bufSize total done) card fun _ step after =>
      ∀ next, step = .again next → done < total ∧ after = card.afterWrite ∧
        ∃ ret fits, card.writes card.written (chunk bufSize total done).toNat =
            .stored ret fits ∧ next = done + UInt32.ofNat ret := by
  unfold writeTurn
  by_cases before : done < total
  · rw [if_pos before]
    refine ensures_bind.mpr (ensures_request.mpr ?_)
    rintro (⟨ret, negative⟩ | ⟨ret, fits⟩) after ⟨answered, rfl⟩
    · exact ensures_pure.mpr nofun
    · refine ensures_pure.mpr ?_
      rintro _ ⟨⟩
      exact ⟨before, rfl, ret, fits, answered.symm, rfl⟩
  · rw [if_neg before]
    exact ensures_pure.mpr nofun

/-- A write that is not refused makes the turn go round. -/
theorem runs_writeTurn {ret : Nat} {fits} (before : done < total)
    (stored : card.writes card.written (chunk bufSize total done).toNat =
      .stored ret fits) : ∃ trace,
    Runs cardCalls (writeTurn bufSize total done) card trace
      (.again (done + UInt32.ofNat ret)) card.afterWrite := by
  unfold writeTurn
  rw [if_pos before]
  exact ⟨_, .call (.stored ret fits) ⟨stored.symm, rfl⟩ (.done _ _)⟩

theorem completes_writeTurn :
    Completes cardCalls (writeTurn bufSize total done) card := by
  unfold writeTurn
  split
  · apply completes_request_bind
    rintro (⟨ret, negative⟩ | ⟨ret, fits⟩) _ - <;> exact completes_pure
  · exact completes_pure

theorem ensures_readTurn :
    Ensures cardCalls (readTurn bufSize total done) card fun _ step _ =>
      ∀ next, step = .again next → total - next < total - done := by
  unfold readTurn
  by_cases before : done < total
  · rw [if_pos before]
    refine ensures_bind.mpr (ensures_request.mpr ?_)
    rintro (⟨ret, negative⟩ | ⟨buf, fits⟩) - -
    · exact ensures_pure.mpr nofun
    · dsimp only
      by_cases empty : buf.length = 0
      · rw [if_pos empty]
        exact ensures_pure.mpr nofun
      · rw [if_neg empty]
        refine ensures_pure.mpr ?_
        rintro _ ⟨⟩
        have within := Nat.le_trans fits (chunk_le bufSize total done)
        exact (left_lt_iff before within).mpr (Nat.pos_of_ne_zero empty)
  · rw [if_neg before]
    exact ensures_pure.mpr nofun

theorem completes_readTurn :
    Completes cardCalls (readTurn bufSize total done) card := by
  unfold readTurn
  split
  · apply completes_request_bind
    rintro (⟨ret, negative⟩ | ⟨buf, fits⟩) - -
    · exact completes_pure
    · dsimp only
      split <;> exact completes_pure
  · exact completes_pure

end Turn

section Loops

variable {bufSize total : UInt32} {card : Card}

/-- A loop each of whose turns has less to do ends within that many turns. -/
theorem completes_of_decreasing
    {turn : UInt32 → SpeedProgram (LoopStep UInt32 (Except Int UInt32))}
    (inv : UInt32 → Card → Prop)
    (completes : ∀ done card, Completes cardCalls (turn done) card)
    (decreases : ∀ done card, inv done card →
      Ensures cardCalls (turn done) card fun _ step after =>
        ∀ next, step = .again next →
          inv next after ∧ total - next < total - done)
    (start : inv 0 card) {fuel : Nat} (enough : total.toNat < fuel) :
    Completes cardCalls (loop turn fuel 0) card := by
  have atStart : (total - 0).toNat < fuel := by rwa [UInt32.sub_zero]
  refine completes_loop inv (fun done _ => (total - done).toNat)
    (fun done card _ => completes done card) ?_ start atStart
  intro done card holds
  refine (decreases done card holds).mono fun _ step after less next same => ?_
  obtain ⟨still, smaller⟩ := less next same
  exact ⟨still, UInt32.lt_iff_toNat_lt.mp smaller⟩

theorem progresses_of_decreasing
    {turn : UInt32 → SpeedProgram (LoopStep UInt32 (Except Int UInt32))}
    (inv : UInt32 → Card → Prop)
    (completes : ∀ done card, Completes cardCalls (turn done) card)
    (decreases : ∀ done card, inv done card →
      Ensures cardCalls (turn done) card fun _ step after =>
        ∀ next, step = .again next →
          inv next after ∧ total - next < total - done)
    (start : inv 0 card) : Progresses total turn card where
  ends := ⟨total.toNat + 1, completes_of_decreasing inv completes decreases start
    (Nat.lt_succ_self _)⟩
  decreases := by
    intro done between trace next after turns runs
    have holds := turns.invariant inv (fun done card holds =>
      (decreases done card holds).mono fun _ step after less next same =>
        (less next same).1) start
    exact (decreases done between holds _ _ _ runs next rfl).2

/-- The read loop progresses whatever the reads bring. -/
theorem readLoop_progresses (bufSize total : UInt32) (card : Card) :
    Progresses total (readTurn bufSize total) card := by
  refine progresses_of_decreasing (fun _ _ => True)
    (fun _ _ => completes_readTurn) (fun done card _ => ?_) trivial
  exact ensures_readTurn.mono fun _ step after less next same =>
    ⟨trivial, less next same⟩

theorem readLoop_completes {fuel : Nat} (enough : total.toNat < fuel) :
    Completes cardCalls (loop (readTurn bufSize total) fuel 0) card := by
  refine completes_of_decreasing (fun _ _ => True)
    (fun _ _ => completes_readTurn) (fun done card _ => ?_) trivial enough
  exact ensures_readTurn.mono fun _ step after less next same =>
    ⟨trivial, less next same⟩

/-- The write loop is where `writtenAfter` says. -/
def WriteInv (bufSize total : UInt32) (card : Card) (done : UInt32)
    (now : Card) : Prop :=
  now.writes = card.writes ∧
    writtenAfter bufSize total card.writes now.written = some done

theorem writeInv_start (fresh : card.written = 0) :
    WriteInv bufSize total card 0 card := by
  refine ⟨rfl, ?_⟩
  rw [fresh]
  rfl

/-- Where each write stores something, each turn has less left to do. -/
theorem writeTurn_decreases (stores : EachWriteStores bufSize total card.writes)
    {done : UInt32} {now : Card} (holds : WriteInv bufSize total card done now) :
    Ensures cardCalls (writeTurn bufSize total done) now fun _ step after =>
      ∀ next, step = .again next →
        WriteInv bufSize total card next after ∧
          total - next < total - done := by
  obtain ⟨same, soFar⟩ := holds
  refine ensures_writeTurn.mono fun _ step after goesOn next again => ?_
  obtain ⟨before, rfl, ret, fits, stored, rfl⟩ := goesOn next again
  rw [same] at stored
  have positive : 0 < ret := by
    rcases Nat.eq_zero_or_pos ret with rfl | positive
    · exact (stores _ done soFar before fits stored).elim
    · exact positive
  have within := Nat.le_trans fits (chunk_le bufSize total done)
  refine ⟨⟨same, ?_⟩, (left_lt_iff before within).mpr positive⟩
  simp [Card.afterWrite, writtenAfter, soFar, before, stored]

theorem writeLoop_progresses (fresh : card.written = 0)
    (stores : EachWriteStores bufSize total card.writes) :
    Progresses total (writeTurn bufSize total) card :=
  progresses_of_decreasing (WriteInv bufSize total card)
    (fun _ _ => completes_writeTurn)
    (fun _ _ holds => writeTurn_decreases stores holds) (writeInv_start fresh)

theorem writeLoop_completes (fresh : card.written = 0)
    (stores : EachWriteStores bufSize total card.writes) {fuel : Nat}
    (enough : total.toNat < fuel) :
    Completes cardCalls (loop (writeTurn bufSize total) fuel 0) card :=
  completes_of_decreasing (WriteInv bufSize total card)
    (fun _ _ => completes_writeTurn)
    (fun _ _ holds => writeTurn_decreases stores holds) (writeInv_start fresh)
    enough

/-- The turns that lead to what `writtenAfter` says. -/
theorem turns_of_writtenAfter (fresh : card.written = 0) {n : Nat}
    {done : UInt32}
    (soFar : writtenAfter bufSize total card.writes n = some done) :
    Turns cardCalls (writeTurn bufSize total) 0 card done
      { card with written := n } := by
  induction n generalizing done with
  | zero =>
      obtain rfl : 0 = done := Option.some.inj soFar
      rcases card with ⟨writes, reads, written, read⟩
      obtain rfl : written = 0 := fresh
      exact .refl _ _
  | succ n ih =>
      obtain ⟨earlier, reached, rest⟩ := Option.bind_eq_some_iff.mp soFar
      obtain ⟨before, rest⟩ := Option.ite_none_right_eq_some.mp rest
      split at rest
      · cases rest
      · rename_i ret fits stored
        cases rest
        obtain ⟨trace, runs⟩ : ∃ trace, Runs cardCalls
            (writeTurn bufSize total earlier) { card with written := n } trace
            (.again (earlier + UInt32.ofNat ret))
            { card with written := n + 1 } :=
          runs_writeTurn before stored
        exact .tail (ih reached) runs

theorem eachWriteStores_of_progresses (fresh : card.written = 0)
    (progresses : Progresses total (writeTurn bufSize total) card) :
    EachWriteStores bufSize total card.writes := by
  intro n done soFar before fits stored
  obtain ⟨trace, runs⟩ : ∃ trace, Runs cardCalls
      (writeTurn bufSize total done) { card with written := n } trace
      (.again (done + UInt32.ofNat 0)) { card with written := n + 1 } :=
    runs_writeTurn before stored
  have less := progresses.decreases _ _ _ _ _
    (turns_of_writtenAfter fresh soFar) runs
  exact Nat.lt_irrefl _ ((left_lt_iff before (Nat.zero_le _)).mp less)

end Loops

section Command

variable {bufSize total : UInt32} {card : Card} {fuel : Nat}

theorem readTest_completes (filePath : CString) (enough : total.toNat < fuel) :
    Completes cardCalls (readTest fuel filePath bufSize total) card := by
  unfold readTest
  refine completes_request_bind fun ret _ _ => ?_
  split
  · refine completes_request_bind fun _ _ _ => ?_
    exact completes_request_bind fun _ _ _ => completes_pure
  · refine completes_request_bind fun startTime _ _ => ?_
    refine (readLoop_completes enough).bind fun _ value _ _ => ?_
    cases value with
    | error ret =>
        refine completes_request_bind fun _ _ _ => ?_
        refine completes_request_bind fun _ _ _ => ?_
        exact completes_request_bind fun _ _ _ => completes_pure
    | ok bytesRead =>
        refine completes_request_bind fun endTime _ _ => ?_
        refine completes_request_bind fun _ _ _ => ?_
        refine completes_request_bind fun _ _ _ => ?_
        refine completes_request_bind fun _ _ _ => ?_
        refine completes_request_bind fun _ _ _ => ?_
        exact completes_request_bind fun _ _ _ => completes_pure

theorem writeTest_completes (filePath : CString) (fresh : card.written = 0)
    (stores : EachWriteStores bufSize total card.writes)
    (enough : total.toNat < fuel) :
    Completes cardCalls (writeTest fuel filePath bufSize total) card := by
  unfold writeTest
  refine completes_request_bind fun ret opened (same : opened = card) => ?_
  subst same
  split
  · refine completes_request_bind fun _ _ _ => ?_
    exact completes_request_bind fun _ _ _ => completes_pure
  · refine completes_request_bind fun startTime timed
      (same : timed = opened) => ?_
    subst same
    refine (writeLoop_completes fresh stores enough).bind fun _ value _ _ => ?_
    cases value with
    | error ret =>
        refine completes_request_bind fun _ _ _ => ?_
        refine completes_request_bind fun _ _ _ => ?_
        exact completes_request_bind fun _ _ _ => completes_pure
    | ok bytesWritten =>
        refine completes_request_bind fun _ _ _ => ?_
        refine completes_request_bind fun endTime _ _ => ?_
        refine completes_request_bind fun _ _ _ => ?_
        refine completes_request_bind fun _ _ _ => ?_
        exact readTest_completes filePath enough

end Command

/-- The command returns if each write that is reached stores something. -/
theorem cmdSdSpeed_completes {argv : List CString} {card : Card} {fuel : Nat}
    (fresh : card.written = 0)
    (stores : EachWriteStores (bufSize (bufKb argv)) (totalBytes (sizeMb argv))
      card.writes)
    (enough : (totalBytes (sizeMb argv)).toNat < fuel) :
    Completes cardCalls (cmdSdSpeed fuel argv) card := by
  unfold cmdSdSpeed
  dsimp only
  split
  · exact completes_request_bind fun _ _ _ => completes_pure
  · refine completes_request_bind fun buf allocated
      (same : allocated = card) => ?_
    subst same
    split
    · exact completes_request_bind fun _ _ _ => completes_pure
    · refine completes_request_bind fun _ unlinked
        (same : unlinked = allocated) => ?_
      subst same
      exact writeTest_completes _ fresh stores enough

/-- For all sizes and whatever the card answers: both loops end, with less to do
after each turn, exactly if each write that is reached stores something. -/
theorem speed_loops_progress_iff (sizeMb bufKb : UInt32) {card : Card}
    (fresh : card.written = 0) :
    (Progresses (totalBytes sizeMb)
        (writeTurn (bufSize bufKb) (totalBytes sizeMb)) card ∧
      Progresses (totalBytes sizeMb)
        (readTurn (bufSize bufKb) (totalBytes sizeMb)) card) ↔
      EachWriteStores (bufSize bufKb) (totalBytes sizeMb) card.writes := by
  constructor
  · rintro ⟨progresses, -⟩
    exact eachWriteStores_of_progresses fresh progresses
  · intro stores
    exact ⟨writeLoop_progresses fresh stores, readLoop_progresses _ _ _⟩

/-- A buffer whose size wraps to zero: nothing is stored on any card. -/
theorem not_eachWriteStores_of_wrap {bufKb total : UInt32} {card : Card}
    (wraps : bufSize bufKb = 0) (something : 0 < total)
    (accepted : ∀ ret negative, card.writes 0 0 ≠ .error ret negative) :
    ¬ EachWriteStores (bufSize bufKb) total card.writes := by
  intro stores
  have empty : (chunk (bufSize bufKb) total 0).toNat = 0 := by
    rw [wraps, chunk, UInt32.min_def]
    split
    · rename_i none
      exact Nat.le_zero.mp (UInt32.le_iff_toNat_le.mp none)
    · rfl
  have first := stores 0 0 rfl something
  rw [empty] at first
  cases answer : card.writes 0 0 with
  | error ret negative => exact accepted ret negative answer
  | stored ret fits =>
      obtain rfl : ret = 0 := Nat.le_zero.mp fits
      exact first fits answer

def roomyCard : Card where
  writes _ count := .stored count (Nat.le_refl _)
  reads _ _ := .data [] (Nat.zero_le _)
  written := 0
  read := 0

def fullCard : Card :=
  { roomyCard with writes := fun _ _ => .stored 0 (Nat.zero_le _) }

/-- The default sizes on a card with room. -/
theorem default_sizes_progress :
    Progresses (totalBytes 4) (writeTurn (bufSize 16) (totalBytes 4))
        roomyCard ∧
      Progresses (totalBytes 4) (readTurn (bufSize 16) (totalBytes 4))
        roomyCard := by
  apply (speed_loops_progress_iff 4 16 rfl).mpr
  intro n bytesWritten _ before fits stored
  have positive : 0 < (chunk (bufSize 16) (totalBytes 4) bytesWritten).toNat :=
    chunk_pos before (by decide)
  injection stored with nothing
  omega

theorem full_card_stops_progress :
    ¬ Progresses (totalBytes 4) (writeTurn (bufSize 16) (totalBytes 4))
      fullCard := by
  intro progresses
  have stores := eachWriteStores_of_progresses rfl progresses
  exact stores 0 0 rfl (by decide) (Nat.zero_le _) rfl

end SdSpeed

end SzpiSta
