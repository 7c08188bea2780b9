import Mathlib.Algebra.BigOperators.Group.List.Basic
import Mathlib.Algebra.GroupWithZero.Nat
import SzpiSta.HttpDl
import SzpiSta.Sha256
import SzpiSta.TransitionPaths

/-!
# What the download callback stores and counts

One call of the callback stores at most one fragment.  When a write is short
the rest of the fragment is lost, the next fragment follows directly, and the
counter has moved by the whole fragment.  So the counter and the file agree in
every state of a download exactly when no write is short and the counter does
not wrap.
-/

namespace SzpiSta

namespace HttpDl

open ExternalCalls ExternalCalls.Program Overwriting TransitionPaths

/-- The part of a response that the callback stores. -/
def HttpResponse.body (rsp : HttpResponse) : List UInt8 :=
  if rsp.bodyFound then rsp.bodyFrag else []

/-- The calls that print progress. -/
def ReportsProgress : Call → Prop
  | .kUptimeGet | .shellFprintf _ => True
  | _ => False

/-- What one call of the callback comes to. -/
inductive CallbackOutcome (ctx : DownloadCtx) (body : List UInt8)
    (world : World) : Trace → Int × DownloadCtx → World → Prop where
  | nothing {printing : Trace} {ctx' : DownloadCtx} (noBody : body = [])
      (prints : ∀ event ∈ printing, ReportsProgress event.call)
      (counted : ctx'.totalWritten = ctx.totalWritten) :
      CallbackOutcome ctx body world printing (0, ctx') world
  | refused {ctx' : DownloadCtx} (someBody : body ≠ []) (code : Int)
      (negative : code < 0) (counted : ctx'.totalWritten = ctx.totalWritten) :
      CallbackOutcome ctx body world
        [⟨.fsWrite body, WriteAnswer.error code negative⟩] (code, ctx') world
  | stored {printing : Trace} {ctx' : DownloadCtx} (someBody : body ≠ [])
      (written : Nat) (fits : written ≤ body.length) {file : OpenFile}
      {content : List UInt8} (opened : world.file = some file)
      (found : world.files file.path = some content)
      (prints : ∀ event ∈ printing, ReportsProgress event.call)
      (counted :
        ctx'.totalWritten = ctx.totalWritten + UInt32.ofNat body.length) :
      CallbackOutcome ctx body world
        (⟨.fsWrite body, WriteAnswer.stored written fits⟩ :: printing) (0, ctx')
        (world.store file content (body.take written))

/-- The context with the fragment of a response counted. -/
def DownloadCtx.count (ctx : DownloadCtx) (rsp : HttpResponse) : DownloadCtx :=
  { ctx with
    totalWritten := ctx.totalWritten + UInt32.ofNat rsp.body.length }

section Callback

variable {sha256 : List UInt8 → Digest} {ctx : DownloadCtx} {rsp : HttpResponse}
variable {finalData : HttpFinalCall} {world : World}

@[simp]
theorem noteSize_totalWritten :
    (ctx.noteSize rsp).totalWritten = ctx.totalWritten := by
  unfold DownloadCtx.noteSize
  split <;> rfl

theorem body_eq_nil
    (hasNone : ¬ (rsp.bodyFound = true ∧ 0 < rsp.bodyFrag.length)) :
    rsp.body = [] := by
  unfold HttpResponse.body
  split
  case isTrue found =>
    by_contra someBody
    exact hasNone ⟨found, List.length_pos_iff.mpr someBody⟩
  case isFalse => rfl

theorem printProgress_ensures :
    Ensures (environment sha256) (printProgress finalData ctx) world
      fun trace ctx' after => (∀ event ∈ trace, ReportsProgress event.call) ∧
        ctx'.totalWritten = ctx.totalWritten ∧ after = world := by
  unfold printProgress
  simp only [ensures_bind, ensures_request]
  rintro now _ rfl
  split
  · simp only [ensures_bind, ensures_request]
    rintro _ _ rfl
    split
    · simp only [ensures_bind, ensures_request, ensures_pure]
      rintro _ _ rfl
      simp [ReportsProgress]
    · simp [ReportsProgress]
  · simp [ReportsProgress]

/-- The rule of the callback: a refused write ends it, and else it prints. -/
theorem ensures_httpDlResponseCb {post : Trace → Int × DownloadCtx → World → Prop}
    (refused : rsp.body ≠ [] → ∀ code negative,
      post [⟨.fsWrite rsp.body, WriteAnswer.error code negative⟩]
        (code, ctx.noteSize rsp) world)
    (stored : rsp.body ≠ [] → ∀ written fits file content,
      world.file = some file → world.files file.path = some content →
      Ensures (environment sha256)
        (printProgress finalData ((ctx.noteSize rsp).count rsp))
        (world.store file content (rsp.body.take written))
        fun printing ctx' after =>
          post (⟨.fsWrite rsp.body, WriteAnswer.stored written fits⟩ :: printing)
            (0, ctx') after)
    (nothing : rsp.body = [] →
      Ensures (environment sha256) (printProgress finalData (ctx.noteSize rsp))
        world fun printing ctx' after => post printing (0, ctx') after) :
    Ensures (environment sha256) (httpDlResponseCb rsp finalData ctx) world
      post := by
  unfold httpDlResponseCb
  dsimp only
  split
  case isTrue hasBody =>
    have body : rsp.body = rsp.bodyFrag := if_pos hasBody.1
    have someBody : rsp.bodyFrag ≠ [] := List.length_pos_iff.mp hasBody.2
    rw [DownloadCtx.count, body] at stored
    rw [body] at refused
    simp only [ensures_bind, ensures_request]
    rintro (⟨code, negative⟩ | ⟨written, fits⟩) middle answered
    · obtain rfl : middle = world := answered
      rw [ensures_pure, List.append_nil]
      exact refused someBody code negative
    · obtain ⟨file, content, opened, found, rfl⟩ := answered
      simp only [ensures_bind, ensures_pure, List.append_nil]
      exact stored someBody written fits file content opened found
  case isFalse hasNone =>
    simp only [ensures_bind, ensures_pure, List.append_nil]
    exact nothing (body_eq_nil hasNone)

theorem httpDlResponseCb_ensures :
    Ensures (environment sha256) (httpDlResponseCb rsp finalData ctx) world
      fun trace result after =>
        CallbackOutcome ctx rsp.body world trace result after := by
  apply ensures_httpDlResponseCb
  · intro someBody code negative
    exact .refused someBody code negative noteSize_totalWritten
  · intro someBody written fits file content opened found
    refine printProgress_ensures.mono ?_
    rintro printing ctx' after ⟨prints, counted, rfl⟩
    refine .stored someBody written fits opened found prints ?_
    rw [counted, DownloadCtx.count, noteSize_totalWritten]
  · intro noBody
    refine printProgress_ensures.mono ?_
    rintro printing ctx' after ⟨prints, counted, rfl⟩
    exact .nothing noBody prints (counted.trans noteSize_totalWritten)

end Callback

/-- The bytes one event stored in the file. -/
def Event.written : Event Call.Answer → Nat
  | ⟨.fsWrite _, .stored written _⟩ => written
  | _ => 0

/-- A write that accepted part of its data only. -/
def ShortWrite : Event Call.Answer → Prop
  | ⟨.fsWrite data, .stored written _⟩ => written < data.length
  | _ => False

/-- One call of the callback: the report it was given, the calls it made and
its value. -/
structure CallbackCall where
  report : Report
  trace : Trace
  ret : Int

/-- Some write of the call was short. -/
def CallbackCall.Short (call : CallbackCall) : Prop :=
  ∃ event ∈ call.trace, ShortWrite event

/-- The bytes a sequence of calls stored in the file. -/
def writtenTotal (calls : List CallbackCall) : Nat :=
  (calls.flatMap fun call => call.trace.map Event.written).sum

/-- A download between two calls of its callback.  `received` is the body so
far, and `refused` says that the callback returned a negative value. -/
structure DownloadState where
  ctx : DownloadCtx
  world : World
  received : List UInt8
  refused : Bool

/-- The client calls the callback, unless it was refused before. -/
structure CallbackStep (sha256 : List UInt8 → Digest) (before : DownloadState)
    (call : CallbackCall) (after : DownloadState) : Prop where
  notRefused : before.refused = false
  runs : Runs (environment sha256)
    (httpDlResponseCb call.report.rsp call.report.finalData before.ctx)
    before.world call.trace (call.ret, after.ctx) after.world
  received : after.received = before.received ++ call.report.rsp.body
  refused : after.refused = decide (call.ret < 0)

/-- A download into an empty file that was just opened. -/
structure Fresh (path : CString) (state : DownloadState) : Prop where
  ctx : state.ctx = .initial
  file : state.world.file = some ⟨path, 0⟩
  empty : state.world.files path = some []
  received : state.received = []
  refused : state.refused = false

/-- The file holds a prefix of the body so far, and the counter its length. -/
def AccountsForBody (path : CString) (state : DownloadState) : Prop :=
  ∃ content, state.world.files path = some content ∧
    content <+: state.received ∧
    state.ctx.totalWritten.toNat = content.length

/-- The file at `path` is open at its end. -/
structure AtEnd (path : CString) (content : List UInt8)
    (state : DownloadState) : Prop where
  file : state.world.file = some ⟨path, content.length⟩
  found : state.world.files path = some content

section Download

variable {sha256 : List UInt8 → Digest} {path : CString}
variable {before after : DownloadState} {call : CallbackCall}
variable {content : List UInt8}

/-- What one call does to the file and the counter. -/
inductive CallEffect (path : CString) (content : List UInt8)
    (before : DownloadState) (call : CallbackCall) (after : DownloadState) :
    Prop where
  | kept (same : AtEnd path content after) (notShort : ¬ call.Short)
      (written : writtenTotal [call] = 0)
      (counted : after.ctx.totalWritten = before.ctx.totalWritten)
      (complete : after.refused = false → call.report.rsp.body = [])
  | extended (written : Nat) (fits : written ≤ call.report.rsp.body.length)
      (atEnd :
        AtEnd path (content ++ call.report.rsp.body.take written) after)
      (short : call.Short ↔ written < call.report.rsp.body.length)
      (total : writtenTotal [call] = written)
      (counted : after.ctx.totalWritten =
        before.ctx.totalWritten + UInt32.ofNat call.report.rsp.body.length)
      (accepted : after.refused = false)

theorem written_eq_zero_of_progress {printing : Trace}
    (prints : ∀ event ∈ printing, ReportsProgress event.call) :
    (printing.map Event.written).sum = 0 ∧
      ¬ ∃ event ∈ printing, ShortWrite event := by
  constructor
  · refine List.sum_eq_zero fun count member => ?_
    obtain ⟨⟨called, answer⟩, inside, rfl⟩ := List.mem_map.mp member
    have isProgress := prints _ inside
    cases called <;> first | rfl | exact isProgress.elim
  · rintro ⟨⟨called, answer⟩, inside, short⟩
    have isProgress := prints _ inside
    cases called <;> first | exact short | exact isProgress

theorem callbackStep_effect (step : CallbackStep sha256 before call after)
    (atEnd : AtEnd path content before) :
    CallEffect path content before call after := by
  have outcome := httpDlResponseCb_ensures _ _ _ step.runs
  rcases call with ⟨report, trace, ret⟩
  rcases after with ⟨ctx', world', received, refused⟩
  have isRefused := step.refused
  dsimp only at outcome isRefused
  subst isRefused
  cases outcome with
  | nothing noBody prints counted =>
      obtain ⟨nothingWritten, notShort⟩ := written_eq_zero_of_progress prints
      exact .kept ⟨atEnd.file, atEnd.found⟩ notShort
        (by simpa [writtenTotal] using nothingWritten) counted fun _ => noBody
  | refused someBody code negative counted =>
      refine .kept ⟨atEnd.file, atEnd.found⟩ ?_ ?_ counted ?_
      · simp [CallbackCall.Short, ShortWrite]
      · simp [writtenTotal, Event.written]
      · simp [negative]
  | @stored printing _ someBody written fits file stored opened found prints
      counted =>
      obtain ⟨nothingWritten, notShort⟩ := written_eq_zero_of_progress prints
      obtain rfl : _ = file := Option.some.inj (atEnd.file.symm.trans opened)
      obtain rfl : _ = stored := Option.some.inj (atEnd.found.symm.trans found)
      have takes : (report.rsp.body.take written).length = written := by
        rw [List.length_take, Nat.min_eq_left fits]
      refine .extended written fits ⟨?_, ?_⟩ ?_ ?_ counted (by simp)
      · simp [World.store]
      · simp [World.store, overwrite_length]
      · rw [CallbackCall.Short, List.exists_mem_cons_iff, or_iff_left notShort]
        rfl
      · simpa [writtenTotal, Event.written] using nothingWritten

/-- What holds after the calls `history` of a download: where the file stands,
and, as long as no write was short, what it contains. -/
structure Stored (path : CString) (content : List UInt8)
    (history : List CallbackCall) (state : DownloadState) : Prop where
  atEnd : AtEnd path content state
  length : content.length = writtenTotal history
  isPrefix : (∀ call ∈ history, ¬ call.Short) → content <+: state.received
  complete : (∀ call ∈ history, ¬ call.Short) → state.refused = false →
    content = state.received
  counted : (∀ call ∈ history, ¬ call.Short) →
    state.ctx.totalWritten = UInt32.ofNat content.length

theorem writtenTotal_append (first second : List CallbackCall) :
    writtenTotal (first ++ second) =
      writtenTotal first + writtenTotal second := by
  simp [writtenTotal]

theorem Fresh.stored (fresh : Fresh path before) : Stored path [] [] before where
  atEnd := ⟨fresh.file, fresh.empty⟩
  length := rfl
  isPrefix := fun _ => List.nil_prefix
  complete := fun _ _ => fresh.received.symm
  counted := fun _ => by rw [fresh.ctx]; rfl

/-- The step lemma. -/
theorem Stored.step {history : List CallbackCall}
    (stored : Stored path content history before)
    (step : CallbackStep sha256 before call after) :
    ∃ content', Stored path content' (history ++ [call]) after := by
  have notShortBefore (notShort : ∀ earlier ∈ history ++ [call],
      ¬ earlier.Short) : ∀ earlier ∈ history, ¬ earlier.Short :=
    fun earlier member => notShort earlier (List.mem_append_left _ member)
  cases callbackStep_effect step stored.atEnd with
  | kept same notShort written counted complete =>
      refine ⟨content, same, ?_, fun notShort => ?_, fun notShort accepted => ?_,
        fun notShort => ?_⟩
      · rw [writtenTotal_append, written, stored.length]
        rfl
      · rw [step.received]
        exact (stored.isPrefix (notShortBefore notShort)).trans
          (List.prefix_append _ _)
      · rw [step.received, complete accepted, List.append_nil]
        exact stored.complete (notShortBefore notShort) step.notRefused
      · rw [counted, stored.counted (notShortBefore notShort)]
  | extended written fits atEnd short total counted accepted =>
      have takes : (call.report.rsp.body.take written).length = written := by
        rw [List.length_take, Nat.min_eq_left fits]
      have whole (notShort : ∀ earlier ∈ history ++ [call],
          ¬ earlier.Short) : written = call.report.rsp.body.length := by
        have := mt short.mpr (notShort call (by simp))
        omega
      have complete (notShort : ∀ earlier ∈ history ++ [call],
          ¬ earlier.Short) :
          content ++ call.report.rsp.body.take written = after.received := by
        rw [step.received, whole notShort, List.take_length,
          stored.complete (notShortBefore notShort) step.notRefused]
      refine ⟨_, atEnd, ?_, fun notShort => ?_, fun notShort _ => ?_,
        fun notShort => ?_⟩
      · rw [writtenTotal_append, total, List.length_append, takes,
          stored.length]
      · exact complete notShort ▸ List.prefix_rfl
      · exact complete notShort
      · rw [counted, stored.counted (notShortBefore notShort),
          List.length_append, takes, whole notShort, UInt32.ofNat_add]

/-- The run lemma. -/
theorem Fresh.run {calls : List CallbackCall} (fresh : Fresh path before)
    (run : Path (CallbackStep sha256) before calls after) :
    ∃ content, Stored path content calls after := by
  refine run.historyInvariant
    (fun history state => ∃ content, Stored path content history state) ?_
    ⟨[], fresh.stored⟩
  rintro history _ call _ ⟨content, stored⟩ step
  exact stored.step step

/-- A short write moves the counter by more than it stores. -/
theorem not_short_of_accounts (stored : AtEnd path content before)
    (accountsBefore : AccountsForBody path before)
    (accountsAfter : AccountsForBody path after)
    (step : CallbackStep sha256 before call after) : ¬ call.Short := by
  obtain ⟨_, found, -, countedBefore⟩ := accountsBefore
  obtain rfl : content = _ := Option.some.inj (stored.found.symm.trans found)
  obtain ⟨_, foundAfter, -, countedAfter⟩ := accountsAfter
  cases callbackStep_effect step stored with
  | kept same notShort => exact notShort
  | extended written fits atEnd short total counted accepted =>
      rw [short, not_lt]
      obtain rfl : _ = _ :=
        Option.some.inj (atEnd.found.symm.trans foundAfter)
      rw [counted, UInt32.toNat_add, UInt32.toNat_ofNat', countedBefore,
        List.length_append, List.length_take, Nat.min_eq_left fits]
        at countedAfter
      have bodyLength : call.report.rsp.body.length < UInt32.size := by
        unfold HttpResponse.body
        split
        · exact call.report.rsp.bodyFragLen
        · decide
      have := before.ctx.totalWritten.toNat_lt
      have size : UInt32.size = 2 ^ 32 := rfl
      omega

/-- In every state of a download into an empty file the file holds a prefix of
the body and the counter its length, exactly if no write of the download is
short and less than 2^32 bytes are stored. -/
theorem every_state_accounts_iff {start finish : DownloadState}
    {calls : List CallbackCall} (fresh : Fresh path start)
    (run : Path (CallbackStep sha256) start calls finish) :
    EveryState (CallbackStep sha256) (AccountsForBody path) start calls
        finish ↔
      (∀ call ∈ calls, ¬ call.Short) ∧ writtenTotal calls < 2 ^ 32 := by
  constructor
  · intro every
    refine ⟨fun call member => ?_, ?_⟩
    · obtain ⟨earlier, later, rfl⟩ := List.append_of_mem member
      obtain ⟨middle, toMiddle, fromMiddle⟩ := path_append_iff.mp run
      obtain ⟨next, step, fromNext⟩ := path_cons_iff.mp fromMiddle
      obtain ⟨content, stored⟩ := fresh.run toMiddle
      refine not_short_of_accounts stored.atEnd ?_ ?_ step
      · exact every earlier (call :: later) middle rfl toMiddle fromMiddle
      · refine every (earlier ++ [call]) later next (by simp) ?_ fromNext
        exact toMiddle.append (path_singleton_iff.mpr step)
    · obtain ⟨content, stored⟩ := fresh.run run
      obtain ⟨_, found, -, counted⟩ :=
        every calls [] finish (by simp) run (.nil _)
      obtain rfl : content = _ :=
        Option.some.inj (stored.atEnd.found.symm.trans found)
      rw [← stored.length, ← counted]
      exact finish.ctx.totalWritten.toNat_lt
  · rintro ⟨notShort, small⟩ earlier later middle rfl toMiddle _
    obtain ⟨content, stored⟩ := fresh.run toMiddle
    have notShort : ∀ call ∈ earlier, ¬ call.Short :=
      fun call member => notShort call (List.mem_append_left _ member)
    refine ⟨content, stored.atEnd.found, stored.isPrefix notShort, ?_⟩
    rw [writtenTotal_append] at small
    have := stored.length
    rw [stored.counted notShort, UInt32.toNat_ofNat', Nat.mod_eq_of_lt]
    omega

end Download

section TwoByteFragment

/-- A fragment of two bytes. -/
def twoBytes : Report where
  rsp := ⟨false, 0, true, [1, 2], by decide, 200⟩
  finalData := .dataMore

/-- The file at the empty path was just opened. -/
def freshDownload : DownloadState where
  ctx := .initial
  world := ⟨fun _ => some [], some ⟨[], 0⟩, []⟩
  received := []
  refused := false

/-- The callback is given the fragment and the file accepts `written` of its
bytes. -/
def twoBytesCall (written : Nat) (fits : written ≤ 2) : CallbackCall where
  report := twoBytes
  trace := [⟨.fsWrite [1, 2], WriteAnswer.stored written fits⟩,
    ⟨.kUptimeGet, (0 : Int)⟩]
  ret := 0

def afterTwoBytes (written : Nat) : DownloadState where
  ctx := { DownloadCtx.initial with totalWritten := 2 }
  world := freshDownload.world.store ⟨[], 0⟩ [] ([1, 2].take written)
  received := [1, 2]
  refused := false

theorem freshDownload_fresh : Fresh [] freshDownload :=
  ⟨rfl, rfl, rfl, rfl, rfl⟩

theorem twoBytesCall_path (written : Nat) (fits : written ≤ 2) :
    Path (CallbackStep Sha256.hash) freshDownload
      [twoBytesCall written fits] (afterTwoBytes written) := by
  refine path_singleton_iff.mpr ⟨rfl, ?_, rfl, rfl⟩
  apply Runs.call
  · exact ⟨⟨[], 0⟩, [], rfl, rfl, rfl⟩
  apply Runs.call
  · exact rfl
  exact .done _ _

theorem full_write_accounts :
    EveryState (CallbackStep Sha256.hash) (AccountsForBody [])
      freshDownload [twoBytesCall 2 (by decide)] (afterTwoBytes 2) := by
  refine (every_state_accounts_iff freshDownload_fresh
    (twoBytesCall_path 2 (by decide))).mpr ⟨?_, by decide⟩
  simp [CallbackCall.Short, twoBytesCall, ShortWrite]

/-- One byte is stored and two are counted. -/
theorem short_write_miscounted :
    ¬ EveryState (CallbackStep Sha256.hash) (AccountsForBody [])
      freshDownload [twoBytesCall 1 (by decide)] (afterTwoBytes 1) := by
  intro every
  obtain ⟨content, found, -, counted⟩ := every
    [twoBytesCall 1 (by decide)] [] (afterTwoBytes 1) rfl
    (twoBytesCall_path 1 (by decide)) (.nil _)
  obtain rfl : [1] = content := Option.some.inj found
  exact absurd counted (by decide)

end TwoByteFragment

end HttpDl

end SzpiSta
