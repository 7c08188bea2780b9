import SzpiSta.HttpDlCallback

/-!
# The progress lines of a download

The quotient of a progress line is computed in 64 bits, cut to an `int` and only
then clamped, and the counter it starts from wraps at 2^32.  Beside the callback
stands a meter that counts in natural numbers.  It decides the same lines, and
the lines of the callback show what the meter shows exactly as long as no
quotient is too large for an `int` and no wrap of the counter sets the percentage
back.
-/

namespace SzpiSta

namespace HttpDl

open ExternalCalls ExternalCalls.Program TransitionPaths

/-- A progress line with a bar. -/
structure BarLine where
  cells : List Char
  percent : Int32
  totalWritten : UInt32
  totalSize : UInt32
  deriving DecidableEq

/-- The line the callback prints for a counter and a size. -/
def barLine (totalWritten totalSize : UInt32) : BarLine where
  cells := progressBar (percentWritten totalWritten totalSize)
  percent := percentWritten totalWritten totalSize
  totalWritten := totalWritten
  totalSize := totalSize

/-- What a line is meant to say.  The size is divided by, and the quotient is
cut to an `int`. -/
structure BarLine.Right (line : BarLine) : Prop where
  divides : 0 < line.totalSize
  narrows : (line.totalWritten.toUInt64 * 100 /
    line.totalSize.toUInt64).toUInt32.toInt32.toInt =
      (100 * line.totalWritten.toNat / line.totalSize.toNat : Nat)
  inRange : 0 ≤ line.percent.toInt ∧ line.percent.toInt ≤ 100
  percent : line.percent.toInt =
    (min 100 (100 * line.totalWritten.toNat / line.totalSize.toNat) : Nat)
  cells : line.cells =
    List.replicate (line.percent.toInt.toNat / 5) '=' ++
      List.replicate (20 - line.percent.toInt.toNat / 5) ' '

section Percent

variable {totalWritten totalSize : UInt32} {percent : Int32} {quotient : Nat}

/-- The 64-bit quotient, cut to 32 bits. -/
theorem quotient_narrowed :
    (totalWritten.toUInt64 * 100 / totalSize.toUInt64).toUInt32.toInt32 =
      Int32.ofNat (100 * totalWritten.toNat / totalSize.toNat) := by
  have exactProduct : totalWritten.toNat * 100 % 2 ^ 64 =
      100 * totalWritten.toNat := by
    have := totalWritten.toNat_lt
    omega
  have exactQuotient :
      (totalWritten.toUInt64 * 100 / totalSize.toUInt64).toNat =
        100 * totalWritten.toNat / totalSize.toNat := by
    rw [UInt64.toNat_div, UInt64.toNat_mul, UInt32.toNat_toUInt64,
      UInt32.toNat_toUInt64]
    exact congrArg (· / totalSize.toNat) exactProduct
  have narrowed :
      (totalWritten.toUInt64 * 100 / totalSize.toUInt64).toUInt32 =
        UInt32.ofNat (100 * totalWritten.toNat / totalSize.toNat) := by
    apply UInt32.toNat_inj.mp
    rw [UInt64.toNat_toUInt32, exactQuotient, UInt32.toNat_ofNat']
  rw [narrowed, UInt32.toInt32_ofNat']

/-- The cut keeps a quotient below 2^31 only. -/
theorem narrowed_eq_iff :
    (Int32.ofNat quotient).toInt = quotient ↔ quotient < 2 ^ 31 := by
  constructor
  · intro same
    have := (Int32.ofNat quotient).toInt_lt
    omega
  · exact Int32.toInt_ofNat_of_lt

theorem percentWritten_eq_clamp :
    percentWritten totalWritten totalSize =
      if 100 < Int32.ofNat (100 * totalWritten.toNat / totalSize.toNat) then 100
      else Int32.ofNat (100 * totalWritten.toNat / totalSize.toNat) := by
  rw [← quotient_narrowed]
  rfl

/-- Clamping gives the minimum. -/
theorem percentWritten_toInt
    (narrow : 100 * totalWritten.toNat / totalSize.toNat < 2 ^ 31) :
    (percentWritten totalWritten totalSize).toInt =
      (min 100 (100 * totalWritten.toNat / totalSize.toNat) : Nat) := by
  have same := Int32.toInt_ofNat_of_lt narrow
  rw [percentWritten_eq_clamp]
  split
  case isTrue above =>
    rw [Int32.lt_iff_toInt_lt, same] at above
    change (100 : Int) < _ at above
    change (100 : Int) = _
    omega
  case isFalse notAbove =>
    rw [Int32.lt_iff_toInt_lt, same] at notAbove
    change ¬ (100 : Int) < _ at notAbove
    rw [same]
    omega

/-- The cells up to a number of them. -/
theorem map_range_lt_eq_replicate {α : Type} (full empty : α) {filled cells : Nat}
    (fits : filled ≤ cells) :
    ((List.range cells).map fun i => if i < filled then full else empty) =
      List.replicate filled full ++ List.replicate (cells - filled) empty := by
  apply List.ext_getElem
  · simp
    omega
  · intro i _ _
    by_cases inside : i < filled <;> simp [inside, List.getElem_append]

theorem progressBar_eq (nonneg : 0 ≤ percent.toInt)
    (atMost : percent.toInt ≤ 100) :
    progressBar percent =
      List.replicate (percent.toInt.toNat / 5) '=' ++
        List.replicate (20 - percent.toInt.toNat / 5) ' ' := by
  have filled : (percent / 5).toInt = (percent.toInt.toNat / 5 : Nat) := by
    rw [Int32.toInt_div_of_ne_right _ _ (by decide)]
    change percent.toInt.tdiv 5 = _
    rw [Int.tdiv_eq_ediv_of_nonneg nonneg]
    omega
  rw [← map_range_lt_eq_replicate '=' ' ' (by omega)]
  apply List.map_congr_left
  intro i member
  have inside := List.mem_range.mp member
  have cell : (Int32.ofNat i).toInt = i := Int32.toInt_ofNat_of_lt (by omega)
  simp only [Int32.lt_iff_toInt_lt, filled, cell, Int.ofNat_lt]

/-- A line is right exactly if its quotient fits an `int`. -/
theorem barLine_right_iff (divides : 0 < totalSize) :
    (barLine totalWritten totalSize).Right ↔
      100 * totalWritten.toNat / totalSize.toNat < 2 ^ 31 := by
  constructor
  · intro right
    have narrows := right.narrows
    rw [quotient_narrowed] at narrows
    exact narrowed_eq_iff.mp narrows
  · intro narrow
    have percent := percentWritten_toInt narrow
    have inRange : 0 ≤ (percentWritten totalWritten totalSize).toInt ∧
        (percentWritten totalWritten totalSize).toInt ≤ 100 := by
      rw [percent]
      exact ⟨Int.natCast_nonneg _, Int.ofNat_le.mpr (min_le_left _ _)⟩
    refine ⟨divides, ?_, inRange, percent,
      progressBar_eq inRange.1 inRange.2⟩
    rw [quotient_narrowed]
    exact narrowed_eq_iff.mpr narrow

end Percent

def ProgressText.bar? : ProgressText → Option BarLine
  | .bar cells percent totalWritten totalSize =>
      some ⟨cells, percent, totalWritten, totalSize⟩
  | _ => none

def Event.bar : Event Call.Answer → Option BarLine
  | ⟨.shellFprintf text, _⟩ => text.bar?
  | _ => none

def Event.clock : Event Call.Answer → Option Int
  | ⟨.kUptimeGet, now⟩ => some now
  | _ => none

/-- The lines with a bar that some calls of the callback print. -/
def barLines (calls : List CallbackCall) : List BarLine :=
  calls.flatMap fun call => call.trace.filterMap Event.bar

/-- The clock as one call of the callback reads it.  A call whose write fails
does not get that far. -/
def CallbackCall.clock (call : CallbackCall) : Option Int :=
  call.trace.findSome? Event.clock

/-- A reading of the meter. -/
structure Reading where
  counted : Nat
  size : Nat
  deriving DecidableEq

def Reading.line (reading : Reading) : BarLine :=
  barLine (UInt32.ofNat reading.counted) (UInt32.ofNat reading.size)

/-- The meter: the bytes of the body so far, the announced length, the time of
the last reading, and the readings taken. -/
structure Meter where
  counted : Nat
  size : Option Nat
  readAt : Int
  readings : List Reading

def Meter.initial : Meter where
  counted := 0
  size := none
  readAt := 0
  readings := []

/-- The length of the body that a response announces. -/
def HttpResponse.announced (rsp : HttpResponse) : Option Nat :=
  if rsp.clPresent then some rsp.contentLength.toNat else none

/-- The first announcement counts. -/
def Meter.receive (meter : Meter) (rsp : HttpResponse) : Meter :=
  { meter with
    counted := meter.counted + rsp.body.length
    size := meter.size.or rsp.announced }

/-- A download of unknown or zero length has no readings. -/
def Meter.reading (meter : Meter) : List Reading :=
  match meter.size with
  | some size => if 0 < size then [⟨meter.counted, size⟩] else []
  | none => []

/-- A reading is due once a second, and at the end. -/
def ReadingDue (finalData : HttpFinalCall) (readAt now : Int) : Prop :=
  finalData = .dataFinal ∨ 1000 ≤ now - readAt

instance (finalData : HttpFinalCall) (readAt now : Int) :
    Decidable (ReadingDue finalData readAt now) :=
  inferInstanceAs (Decidable (_ ∨ _))

def Meter.tick (meter : Meter) (finalData : HttpFinalCall) :
    Option Int → Meter
  | some now =>
      if ReadingDue finalData meter.readAt now then
        { meter with
          readAt := now
          readings := meter.readings ++ meter.reading }
      else
        meter
  | none => meter

def Meter.call (meter : Meter) (call : CallbackCall) : Meter :=
  (meter.receive call.report.rsp).tick call.report.finalData call.clock

def meterAfter (calls : List CallbackCall) : Meter :=
  calls.foldl Meter.call .initial

/-- The bytes of the body that some calls of the callback are given. -/
def bodyBytes (calls : List CallbackCall) : Nat :=
  (calls.map fun call => call.report.rsp.body.length).sum

/-- The line with a bar that a context calls for. -/
def DownloadCtx.bars (ctx : DownloadCtx) : List BarLine :=
  if ctx.hasSize ∧ 0 < ctx.totalSize then
    [barLine ctx.totalWritten ctx.totalSize]
  else
    []

/-- What printing progress comes to. -/
inductive PrintOutcome (finalData : HttpFinalCall) (ctx : DownloadCtx) :
    Trace → DownloadCtx → Prop where
  | printed {trace : Trace} (now : Int)
      (due : ReadingDue finalData ctx.lastPrintTime now)
      (clock : trace.findSome? Event.clock = some now)
      (bars : trace.filterMap Event.bar = ctx.bars) :
      PrintOutcome finalData ctx trace { ctx with lastPrintTime := now }
  | quiet {trace : Trace} (now : Int)
      (notDue : ¬ ReadingDue finalData ctx.lastPrintTime now)
      (clock : trace.findSome? Event.clock = some now)
      (bars : trace.filterMap Event.bar = []) :
      PrintOutcome finalData ctx trace ctx

section Printing

variable {sha256 : List UInt8 → Digest} {ctx : DownloadCtx} {rsp : HttpResponse}
variable {finalData : HttpFinalCall} {world : World}

theorem bar_progressText : ctx.progressText.bar?.toList = ctx.bars := by
  unfold DownloadCtx.progressText DownloadCtx.bars
  split <;> rfl

theorem printProgress_prints :
    Ensures (environment sha256) (printProgress finalData ctx) world
      fun trace ctx' _ => PrintOutcome finalData ctx trace ctx' := by
  unfold printProgress
  simp only [ensures_bind, ensures_request]
  rintro now _ rfl
  split
  case isTrue due =>
    simp only [ensures_bind, ensures_request]
    rintro answer _ rfl
    have bars : ([⟨.shellFprintf ctx.progressText, answer⟩] : Trace).filterMap
        Event.bar = ctx.bars := by
      rw [← bar_progressText]
      cases bar : ctx.progressText.bar? <;> simp [Event.bar, bar]
    split
    · simp only [ensures_bind, ensures_request, ensures_pure]
      rintro finished _ rfl
      exact .printed now due rfl bars
    · rw [ensures_pure]
      exact .printed now due rfl bars
  case isFalse notDue =>
    rw [ensures_pure]
    exact .quiet now notDue rfl rfl

theorem count_of_no_body (noBody : rsp.body = []) : ctx.count rsp = ctx := by
  simp [DownloadCtx.count, noBody]

/-- One call of the callback: a refused write, or the print. -/
theorem httpDlResponseCb_prints :
    Ensures (environment sha256) (httpDlResponseCb rsp finalData ctx) world
      fun trace result _ =>
        (result.1 < 0 ∧ result.2 = ctx.noteSize rsp ∧
          trace.findSome? Event.clock = none ∧
          trace.filterMap Event.bar = []) ∨
        (result.1 = 0 ∧
          PrintOutcome finalData ((ctx.noteSize rsp).count rsp) trace
            result.2) := by
  apply ensures_httpDlResponseCb
  · intro _ code negative
    exact .inl ⟨negative, rfl, rfl, rfl⟩
  · intro _ written fits file content _ _
    refine printProgress_prints.mono ?_
    rintro printing ctx' after outcome
    refine .inr ⟨rfl, ?_⟩
    -- The write adds no clock and no line to what the print did.
    cases outcome with
    | printed now due clock bars => exact .printed now due clock bars
    | quiet now notDue clock bars => exact .quiet now notDue clock bars
  · intro noBody
    refine printProgress_prints.mono ?_
    rintro printing ctx' after outcome
    rw [count_of_no_body noBody]
    exact .inr ⟨rfl, outcome⟩

end Printing

/-- The counter of the callback is the meter's, up to wrapping.  After a refused
write the client stops, and the counter is not looked at again. -/
structure Tracks (meter : Meter) (state : DownloadState) : Prop where
  counted : state.refused = false →
    state.ctx.totalWritten = UInt32.ofNat meter.counted
  size : meter.size =
    if state.ctx.hasSize then some state.ctx.totalSize.toNat else none
  readAt : state.ctx.lastPrintTime = meter.readAt

section Meter

variable {sha256 : List UInt8 → Digest} {meter : Meter}
variable {before after start finish : DownloadState} {call : CallbackCall}
variable {calls : List CallbackCall} {rsp : HttpResponse} {ctx : DownloadCtx}

theorem noteSize_size
    (size : meter.size = if ctx.hasSize then some ctx.totalSize.toNat else none) :
    (meter.receive rsp).size =
      if (ctx.noteSize rsp).hasSize then
        some (ctx.noteSize rsp).totalSize.toNat
      else none := by
  have received : (meter.receive rsp).size =
      meter.size.or rsp.announced := rfl
  rw [received, size]
  unfold DownloadCtx.noteSize HttpResponse.announced
  cases known : ctx.hasSize <;> cases rsp.clPresent <;> simp [known]

theorem noteSize_lastPrintTime :
    (ctx.noteSize rsp).lastPrintTime = ctx.lastPrintTime := by
  unfold DownloadCtx.noteSize
  split <;> rfl

/-- The lines a context calls for are the meter's readings. -/
theorem bars_eq_reading
    (counted : ctx.totalWritten = UInt32.ofNat meter.counted)
    (size : meter.size =
      if ctx.hasSize then some ctx.totalSize.toNat else none) :
    ctx.bars = meter.reading.map Reading.line := by
  unfold DownloadCtx.bars Meter.reading
  rw [size]
  cases ctx.hasSize
  case false => rfl
  case true =>
    have positive : 0 < ctx.totalSize ↔ 0 < ctx.totalSize.toNat :=
      UInt32.lt_iff_toNat_lt
    by_cases divides : 0 < ctx.totalSize
    · rw [if_pos ⟨rfl, divides⟩]
      simp [positive.mp divides, Reading.line, counted]
    · have notPositive := mt positive.mpr divides
      simp [divides, notPositive]

/-- The step lemma: the callback moves on with the meter, and prints the lines
of the readings taken. -/
theorem Tracks.step (tracks : Tracks meter before)
    (step : CallbackStep sha256 before call after) :
    Tracks (meter.call call) after ∧
      (meter.call call).readings.map Reading.line =
        meter.readings.map Reading.line ++
          call.trace.filterMap Event.bar := by
  have outcome := httpDlResponseCb_prints _ _ _ step.runs
  have isRefused := step.refused
  have size : (meter.receive call.report.rsp).size =
      if (before.ctx.noteSize call.report.rsp).hasSize then
        some (before.ctx.noteSize call.report.rsp).totalSize.toNat
      else none :=
    noteSize_size tracks.size
  have readAt : (before.ctx.noteSize call.report.rsp).lastPrintTime =
      before.ctx.lastPrintTime :=
    noteSize_lastPrintTime
  dsimp only at outcome
  rcases outcome with ⟨negative, same, clock, bars⟩ | ⟨zero, printed⟩
  · have tick : meter.call call = meter.receive call.report.rsp := by
      rw [Meter.call, CallbackCall.clock, clock]
      rfl
    rw [tick, bars, List.append_nil]
    refine ⟨⟨?_, ?_, ?_⟩, rfl⟩
    · intro accepted
      rw [accepted] at isRefused
      simp [negative] at isRefused
    · rw [same, size]
    · rw [same, readAt, tracks.readAt]
      rfl
  · have counted : ((before.ctx.noteSize call.report.rsp).count
        call.report.rsp).totalWritten =
          UInt32.ofNat (meter.receive call.report.rsp).counted := by
      change (before.ctx.noteSize call.report.rsp).totalWritten + _ = _
      rw [noteSize_totalWritten, tracks.counted step.notRefused,
        ← UInt32.ofNat_add]
      rfl
    have current := bars_eq_reading counted size
    have lastPrint : ((before.ctx.noteSize call.report.rsp).count
        call.report.rsp).lastPrintTime = meter.readAt :=
      readAt.trans tracks.readAt
    cases after with
    | mk ctx' world' received refused =>
      cases printed with
      | printed now due clock bars =>
          have tick : meter.call call =
              { meter.receive call.report.rsp with
                readAt := now
                readings := meter.readings ++
                  (meter.receive call.report.rsp).reading } := by
            rw [Meter.call, CallbackCall.clock, clock]
            exact if_pos (lastPrint ▸ due)
          rw [tick, bars, current, List.map_append]
          exact ⟨⟨fun _ => counted, size, rfl⟩, rfl⟩
      | quiet now notDue clock bars =>
          have tick : meter.call call = meter.receive call.report.rsp := by
            rw [Meter.call, CallbackCall.clock, clock]
            exact if_neg (lastPrint ▸ notDue)
          rw [tick, bars, List.append_nil]
          exact ⟨⟨fun _ => counted, size, lastPrint⟩, rfl⟩

theorem meterAfter_append_singleton :
    meterAfter (calls ++ [call]) = (meterAfter calls).call call := by
  simp [meterAfter]

theorem barLines_append_singleton :
    barLines (calls ++ [call]) =
      barLines calls ++ call.trace.filterMap Event.bar := by
  simp [barLines]

/-- The run lemma: the lines are those of the meter's readings. -/
theorem barLines_eq_readings (initial : start.ctx = .initial)
    (run : Path (CallbackStep sha256) start calls finish) :
    barLines calls = (meterAfter calls).readings.map Reading.line := by
  have initially : Tracks (meterAfter []) start ∧
      barLines [] = (meterAfter []).readings.map Reading.line := by
    refine ⟨⟨fun _ => ?_, ?_, ?_⟩, rfl⟩
    · rw [initial]
      rfl
    · rw [initial]
      rfl
    · rw [initial]
      rfl
  have atEnd := run.historyInvariant
    (fun history state => Tracks (meterAfter history) state ∧
      barLines history = (meterAfter history).readings.map Reading.line)
    ?_ initially
  · exact atEnd.2
  · rintro history _ call _ ⟨tracks, lines⟩ step
    obtain ⟨tracksNext, readings⟩ := tracks.step step
    rw [meterAfter_append_singleton, barLines_append_singleton, lines, readings]
    exact ⟨tracksNext, rfl⟩

end Meter

/-- The readings of a download are of one size, and do not go back. -/
structure Meter.Sound (meter : Meter) : Prop where
  bounded : ∀ size, meter.size = some size → size < 2 ^ 32
  readings : ∀ reading ∈ meter.readings, meter.size = some reading.size ∧
    0 < reading.size ∧ reading.counted ≤ meter.counted
  ordered : meter.readings.Pairwise fun earlier later =>
    earlier.counted ≤ later.counted

section Sound

variable {meter : Meter} {rsp : HttpResponse} {reading : Reading}
variable {finalData : HttpFinalCall} {clock : Option Int}
variable {calls : List CallbackCall}

theorem announced_lt {size : Nat} (announced : rsp.announced = some size) :
    size < 2 ^ 32 := by
  unfold HttpResponse.announced at announced
  split at announced
  · obtain rfl := Option.some.inj announced
    exact rsp.contentLength.toNat_lt
  · cases announced

theorem Meter.Sound.receive (sound : meter.Sound) :
    (meter.receive rsp).Sound where
  bounded := by
    intro size known
    rcases Option.or_eq_some_iff.mp known with before | ⟨_, announced⟩
    · exact sound.bounded size before
    · exact announced_lt announced
  readings := by
    intro reading member
    obtain ⟨known, positive, atMost⟩ := sound.readings reading member
    refine ⟨?_, positive, Nat.le_add_right_of_le atMost⟩
    exact Option.or_eq_some_iff.mpr (.inl known)
  ordered := sound.ordered

theorem mem_reading (member : reading ∈ meter.reading) :
    meter.size = some reading.size ∧ 0 < reading.size ∧
      reading.counted = meter.counted := by
  unfold Meter.reading at member
  split at member
  case h_1 size known =>
    split at member
    case isTrue positive =>
      obtain rfl := List.mem_singleton.mp member
      exact ⟨known, positive, rfl⟩
    case isFalse => cases member
  case h_2 => cases member

theorem reading_pairwise {R : Reading → Reading → Prop} :
    meter.reading.Pairwise R := by
  unfold Meter.reading
  split
  · split
    · exact List.pairwise_singleton _ _
    · exact .nil
  · exact .nil

theorem Meter.Sound.tick (sound : meter.Sound) :
    (meter.tick finalData clock).Sound := by
  cases clock with
  | none => exact sound
  | some now =>
      unfold Meter.tick
      dsimp only
      split
      · refine ⟨sound.bounded, ?_, ?_⟩
        · intro reading member
          rcases List.mem_append.mp member with taken | new
          · exact sound.readings reading taken
          · obtain ⟨known, positive, counted⟩ := mem_reading new
            exact ⟨known, positive, counted.le⟩
        · rw [List.pairwise_append]
          refine ⟨sound.ordered, reading_pairwise, ?_⟩
          intro earlier taken later new
          rw [(mem_reading new).2.2]
          exact (sound.readings earlier taken).2.2
      · exact sound

theorem Meter.tick_counted : (meter.tick finalData clock).counted =
    meter.counted := by
  cases clock with
  | none => rfl
  | some now =>
      unfold Meter.tick
      dsimp only
      split <;> rfl

/-- The meter counts what the callback is given. -/
theorem meterAfter_counted : (meterAfter calls).counted = bodyBytes calls := by
  induction calls using List.reverseRecOn with
  | nil => rfl
  | append_singleton calls call ih =>
      rw [meterAfter_append_singleton, Meter.call, Meter.tick_counted,
        Meter.receive, ih]
      simp [bodyBytes]

theorem meterAfter_sound : (meterAfter calls).Sound := by
  induction calls using List.reverseRecOn with
  | nil =>
      refine ⟨?_, ?_, .nil⟩
      · rintro size ⟨⟩
      · rintro reading ⟨⟩
  | append_singleton calls call ih =>
      rw [meterAfter_append_singleton]
      exact ih.receive.tick

end Sound

/-- The percentage before clamping, from the counter as it wraps. -/
def Reading.quotient (reading : Reading) : Nat :=
  100 * (reading.counted % 2 ^ 32) / reading.size

/-- The quotient fits an `int`. -/
def Reading.FitsInt (reading : Reading) : Prop :=
  reading.quotient < 2 ^ 31

/-- The counter does not wrap between two readings, or the later percentage
catches up all the same. -/
def Reading.KeepsUp (earlier later : Reading) : Prop :=
  earlier.counted / 2 ^ 32 = later.counted / 2 ^ 32 ∨
    later.size ≤ later.counted % 2 ^ 32 ∨ earlier.quotient ≤ later.quotient

instance (reading : Reading) : Decidable reading.FitsInt :=
  inferInstanceAs (Decidable (_ < _))

instance (earlier later : Reading) : Decidable (earlier.KeepsUp later) :=
  inferInstanceAs (Decidable (_ ∨ _ ∨ _))

/-- What the progress lines of a download are meant to say. -/
structure LinesRight (lines : List BarLine) : Prop where
  each : ∀ line ∈ lines, line.Right
  ordered : lines.Pairwise fun earlier later => earlier.percent ≤ later.percent

section Lines

variable {sha256 : List UInt8 → Digest} {start finish : DownloadState}
variable {calls : List CallbackCall} {reading earlier later : Reading}
variable {meter : Meter}

theorem keepsUp_iff (sameSize : earlier.size = later.size)
    (positive : 0 < later.size) (noLess : earlier.counted ≤ later.counted) :
    min 100 earlier.quotient ≤ min 100 later.quotient ↔
      earlier.KeepsUp later := by
  have full : 100 ≤ later.quotient ↔ later.size ≤ later.counted % 2 ^ 32 := by
    rw [Reading.quotient, Nat.le_div_iff_mul_le positive]
    omega
  unfold Reading.KeepsUp
  rw [← full]
  constructor
  · intro ordered
    omega
  · rintro (sameTurn | reached | noLess)
    · have counters : earlier.counted % 2 ^ 32 ≤ later.counted % 2 ^ 32 := by
        omega
      have : earlier.quotient ≤ later.quotient := by
        unfold Reading.quotient
        rw [sameSize]
        exact Nat.div_le_div_right (Nat.mul_le_mul_left 100 counters)
      omega
    · omega
    · omega

theorem line_right_iff (positive : 0 < reading.size)
    (bounded : reading.size < 2 ^ 32) :
    reading.line.Right ↔ reading.FitsInt := by
  have size : (UInt32.ofNat reading.size).toNat = reading.size := by
    rw [UInt32.toNat_ofNat', Nat.mod_eq_of_lt bounded]
  have divides : 0 < UInt32.ofNat reading.size := by
    rw [UInt32.lt_iff_toNat_lt, size]
    exact positive
  rw [Reading.line, barLine_right_iff divides, size, UInt32.toNat_ofNat']
  rfl

theorem line_percent (bounded : reading.size < 2 ^ 32)
    (right : reading.line.Right) :
    reading.line.percent.toInt = (min 100 reading.quotient : Nat) := by
  rw [right.percent]
  change ((min 100 (100 * (UInt32.ofNat reading.counted).toNat /
    (UInt32.ofNat reading.size).toNat) : Nat) : Int) = _
  rw [UInt32.toNat_ofNat', UInt32.toNat_ofNat', Nat.mod_eq_of_lt bounded]
  rfl

theorem linesRight_iff (sound : meter.Sound) :
    LinesRight (meter.readings.map Reading.line) ↔
      (∀ reading ∈ meter.readings, reading.FitsInt) ∧
        meter.readings.Pairwise Reading.KeepsUp := by
  have bounded (reading : Reading) (member : reading ∈ meter.readings) :
      reading.size < 2 ^ 32 :=
    sound.bounded _ (sound.readings reading member).1
  have each : (∀ line ∈ meter.readings.map Reading.line, line.Right) ↔
      ∀ reading ∈ meter.readings, reading.FitsInt := by
    rw [List.forall_mem_map]
    apply forall₂_congr
    intro reading member
    exact line_right_iff (sound.readings reading member).2.1
      (bounded reading member)
  -- Two readings of one download, compared by what their lines say.
  have compare (right : ∀ reading ∈ meter.readings, reading.line.Right)
      (earlier later : Reading) (first : earlier ∈ meter.readings)
      (second : later ∈ meter.readings)
      (noLess : earlier.counted ≤ later.counted) :
      earlier.line.percent ≤ later.line.percent ↔ earlier.KeepsUp later := by
    obtain ⟨knownFirst, -, -⟩ := sound.readings earlier first
    obtain ⟨knownSecond, positive, -⟩ := sound.readings later second
    have sameSize := Option.some.inj (knownFirst.symm.trans knownSecond)
    rw [← keepsUp_iff sameSize positive noLess, Int32.le_iff_toInt_le,
      line_percent (bounded _ first) (right _ first),
      line_percent (bounded _ second) (right _ second), Int.ofNat_le]
  constructor
  · rintro ⟨right, ordered⟩
    refine ⟨each.mp right, ?_⟩
    rw [List.forall_mem_map] at right
    rw [List.pairwise_map] at ordered
    apply (ordered.and sound.ordered).imp_of_mem
    rintro earlier later first second ⟨noHigher, noLess⟩
    exact (compare right _ _ first second noLess).mp noHigher
  · rintro ⟨fits, keepsUp⟩
    have right := each.mpr fits
    refine ⟨right, ?_⟩
    rw [List.forall_mem_map] at right
    rw [List.pairwise_map]
    apply (keepsUp.and sound.ordered).imp_of_mem
    rintro earlier later first second ⟨keepsUp, noLess⟩
    exact (compare right _ _ first second noLess).mpr keepsUp

/-- In a body below 2^32 bytes nothing wraps. -/
theorem linesRight_iff_of_small (sound : meter.Sound)
    (small : meter.counted < 2 ^ 32) :
    LinesRight (meter.readings.map Reading.line) ↔
      ∀ reading ∈ meter.readings,
        100 * reading.counted / reading.size < 2 ^ 31 := by
  have below (reading : Reading) (member : reading ∈ meter.readings) :
      reading.counted < 2 ^ 32 :=
    (sound.readings reading member).2.2.trans_lt small
  have fits : (∀ reading ∈ meter.readings, reading.FitsInt) ↔
      ∀ reading ∈ meter.readings,
        100 * reading.counted / reading.size < 2 ^ 31 := by
    apply forall₂_congr
    intro reading member
    unfold Reading.FitsInt Reading.quotient
    rw [Nat.mod_eq_of_lt (below reading member)]
  have keepsUp : meter.readings.Pairwise Reading.KeepsUp := by
    apply sound.ordered.imp_of_mem
    intro earlier later first second _
    refine .inl ?_
    rw [Nat.div_eq_of_lt (below earlier first),
      Nat.div_eq_of_lt (below later second)]
  rw [linesRight_iff sound, fits]
  exact and_iff_left keepsUp

/-- Every progress line of a download is right, and no percentage is lower than
one before it, exactly if every quotient fits an `int` and the percentage keeps
up wherever the counter wraps.  In a body below 2^32 bytes it does not wrap, and
what is left is that the percentages before clamping are below 2^31. -/
theorem progress_lines_right_iff (initial : start.ctx = .initial)
    (run : Path (CallbackStep sha256) start calls finish) :
    (LinesRight (barLines calls) ↔
      (∀ reading ∈ (meterAfter calls).readings, reading.FitsInt) ∧
        (meterAfter calls).readings.Pairwise Reading.KeepsUp) ∧
    (bodyBytes calls < 2 ^ 32 →
      (LinesRight (barLines calls) ↔
        ∀ reading ∈ (meterAfter calls).readings,
          100 * reading.counted / reading.size < 2 ^ 31)) := by
  rw [barLines_eq_readings initial run]
  refine ⟨linesRight_iff meterAfter_sound, fun small => ?_⟩
  apply linesRight_iff_of_small meterAfter_sound
  rw [meterAfter_counted]
  exact small

end Lines

section HalfReceived

/-- The last two of four bytes are missing. -/
def halfReport : Report where
  rsp := ⟨true, 4, true, [3, 4], by decide, 200⟩
  finalData := .dataFinal

def afterHalf : DownloadState where
  ctx := ⟨0, 2, 4, true⟩
  world := freshDownload.world.store ⟨[], 0⟩ [] ([3, 4].take 2)
  received := [3, 4]
  refused := false

def halfCall : CallbackCall where
  report := halfReport
  trace := [⟨.fsWrite [3, 4], WriteAnswer.stored 2 (by decide)⟩,
    ⟨.kUptimeGet, (0 : Int)⟩, ⟨.shellFprintf afterHalf.ctx.progressText, ()⟩,
    ⟨.shellFprintf .finished, ()⟩]
  ret := 0

theorem halfCall_path :
    Path (CallbackStep Sha256.hash) freshDownload [halfCall]
      afterHalf := by
  refine path_singleton_iff.mpr ⟨rfl, ?_, rfl, rfl⟩
  apply Runs.call
  · exact ⟨⟨[], 0⟩, [], rfl, rfl, rfl⟩
  apply Runs.call
  · exact rfl
  apply Runs.call
  · exact rfl
  apply Runs.call
  · exact rfl
  exact .done _ _

theorem half_received_right : bodyBytes [halfCall] = 2 ∧
    LinesRight (barLines [halfCall]) := by
  obtain ⟨always, small⟩ := progress_lines_right_iff rfl halfCall_path
  exact ⟨rfl, (small (by decide)).mpr (by decide)⟩

end HalfReceived

section Oversized

/-- A buffer of a body that was announced as one byte long. -/
def announcedShort (buffer : List UInt8) (bounded : buffer.length < UInt32.size)
    (finalData : HttpFinalCall) : Report where
  rsp := ⟨true, 1, true, buffer, bounded, 200⟩
  finalData := finalData

/-- The client goes on, and the file is open. -/
structure Receiving (state : DownloadState) : Prop where
  accepted : state.refused = false
  opened : ∃ file content, state.world.file = some file ∧
    state.world.files file.path = some content

variable (sha256 : List UInt8 → Digest) {start before : DownloadState}
variable {buffer : List UInt8}

/-- Whatever the clock says, the print runs. -/
theorem printProgress_runs (finalData : HttpFinalCall) (ctx : DownloadCtx)
    (world : World) (now : Int) :
    ∃ printing ctx', printing.findSome? Event.clock = some now ∧
      Runs (environment sha256) (printProgress finalData ctx) world printing
        ctx' world := by
  by_cases due : finalData = .dataFinal ∨ 1000 ≤ now - ctx.lastPrintTime
  · by_cases isFinal : finalData = .dataFinal
    · refine ⟨[⟨.kUptimeGet, now⟩,
        ⟨.shellFprintf { ctx with lastPrintTime := now }.progressText, ()⟩,
        ⟨.shellFprintf .finished, ()⟩], { ctx with lastPrintTime := now }, rfl,
        ?_⟩
      unfold printProgress
      apply Runs.call
      · exact rfl
      dsimp only [Program.bind]
      rw [if_pos due, if_pos isFinal]
      apply Runs.call
      · exact rfl
      apply Runs.call
      · exact rfl
      exact .done _ _
    · refine ⟨[⟨.kUptimeGet, now⟩,
        ⟨.shellFprintf { ctx with lastPrintTime := now }.progressText, ()⟩],
        { ctx with lastPrintTime := now }, rfl, ?_⟩
      unfold printProgress
      apply Runs.call
      · exact rfl
      dsimp only [Program.bind]
      rw [if_pos due, if_neg isFinal]
      apply Runs.call
      · exact rfl
      exact .done _ _
  · refine ⟨[⟨.kUptimeGet, now⟩], ctx, rfl, ?_⟩
    unfold printProgress
    apply Runs.call
    · exact rfl
    dsimp only [Program.bind]
    rw [if_neg due]
    exact .done _ _

/-- The buffer is written in full. -/
theorem Receiving.step (receiving : Receiving before)
    (bounded : buffer.length < UInt32.size) (someBytes : 0 < buffer.length)
    (finalData : HttpFinalCall) (now : Int) :
    ∃ call after, call.report = announcedShort buffer bounded finalData ∧
      call.clock = some now ∧ CallbackStep sha256 before call after ∧
      Receiving after := by
  obtain ⟨accepted, file, content, opened, found⟩ := receiving
  let report := announcedShort buffer bounded finalData
  let ctx := before.ctx.noteSize report.rsp
  let written := before.world.store file content (buffer.take buffer.length)
  obtain ⟨printing, ctx', clock, prints⟩ := printProgress_runs sha256 finalData
    { ctx with totalWritten := ctx.totalWritten + UInt32.ofNat buffer.length }
    written now
  refine ⟨⟨report, ⟨.fsWrite buffer, WriteAnswer.stored buffer.length le_rfl⟩ ::
      printing, 0⟩, ⟨ctx', written, before.received ++ buffer, false⟩,
    rfl, clock, ⟨accepted, ?_, rfl, rfl⟩, rfl, ?_⟩
  · unfold httpDlResponseCb
    dsimp only
    rw [if_pos ⟨rfl, someBytes⟩]
    apply Runs.call
    · exact ⟨file, content, opened, found, rfl⟩
    rw [← List.append_nil printing]
    exact prints.bind (.done _ _)
  · exact ⟨_, _, rfl, Function.update_self _ _ _⟩

/-- Any number of buffers before the first reading. -/
theorem Receiving.path (receiving : Receiving start)
    (bounded : buffer.length < UInt32.size) (someBytes : 0 < buffer.length)
    (count : Nat) :
    ∃ calls after size, Path (CallbackStep sha256) start calls after ∧
      Receiving after ∧ (size = none ∨ size = some 1) ∧
      meterAfter calls = ⟨count * buffer.length, size, 0, []⟩ := by
  induction count with
  | zero =>
      refine ⟨[], start, none, .nil _, receiving, .inl rfl, ?_⟩
      rw [Nat.zero_mul]
      rfl
  | succ count ih =>
      obtain ⟨calls, middle, size, path, next, sizes, meter⟩ := ih
      obtain ⟨call, after, report, clock, step, last⟩ :=
        next.step sha256 bounded someBytes .dataMore 0
      refine ⟨calls ++ [call], after, some 1,
        path.append (path_singleton_iff.mpr step), last, .inr rfl, ?_⟩
      rw [meterAfter_append_singleton, meter, Meter.call, report, clock,
        Nat.succ_mul]
      rcases sizes with rfl | rfl <;> rfl

/-- A body announced as one byte long, of any number of buffers. -/
theorem Receiving.oversized (receiving : Receiving start)
    (bounded : buffer.length < UInt32.size) (someBytes : 0 < buffer.length)
    (count : Nat) :
    ∃ calls finish, Path (CallbackStep sha256) start calls finish ∧
      (meterAfter calls).readings = [⟨(count + 1) * buffer.length, 1⟩] := by
  obtain ⟨calls, middle, size, path, next, sizes, meter⟩ :=
    receiving.path sha256 bounded someBytes count
  obtain ⟨call, finish, report, clock, step, -⟩ :=
    next.step sha256 bounded someBytes .dataFinal 0
  refine ⟨calls ++ [call], finish,
    path.append (path_singleton_iff.mpr step), ?_⟩
  rw [meterAfter_append_singleton, meter, Meter.call, report, clock,
    Nat.succ_mul]
  rcases sizes with rfl | rfl <;> rfl

/-- 21 megabytes that were announced as one byte: the quotient is cut to a
negative percentage. -/
theorem oversized_body_not_right : ∃ calls finish,
    Path (CallbackStep Sha256.hash) freshDownload calls finish ∧
      (meterAfter calls).readings = [⟨20972 * 1024, 1⟩] ∧
      barLines calls = [barLine (20972 * 1024) 1] ∧
      (barLine (20972 * 1024) 1).percent = -2147434496 ∧
      ¬ LinesRight (barLines calls) := by
  have length : (List.replicate 1024 (0 : UInt8)).length = 1024 :=
    List.length_replicate
  have receiving : Receiving freshDownload :=
    ⟨rfl, ⟨[], 0⟩, [], rfl, rfl⟩
  obtain ⟨calls, finish, path, readings⟩ := receiving.oversized
    Sha256.hash (length.trans_lt (by decide))
    (Nat.zero_lt_of_lt length.ge) 20971
  rw [length] at readings
  have lines : barLines calls = [barLine (20972 * 1024) 1] := by
    rw [barLines_eq_readings rfl path, readings]
    rfl
  refine ⟨calls, finish, path, readings, lines, by decide, fun right => ?_⟩
  have inRange := (right.each _ (lines ▸ List.mem_cons_self)).inRange
  exact absurd inRange.1 (by decide)

end Oversized

end HttpDl

end SzpiSta
