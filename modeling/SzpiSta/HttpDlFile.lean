import SzpiSta.HttpDlCallback
import SzpiSta.HttpDlHash

/-!
# What a download leaves on the card

A download is its request, with a file around it that takes the body, and a
checksum of that file.  What is known of the parts is put together here.  The
file is opened without truncating it, so it equals the downloaded body exactly if
the body is at least as long as what was there before.
-/

namespace SzpiSta

namespace HttpDl

open ExternalCalls ExternalCalls.Program HexText Overwriting

/-- A write that did not store all of its data. -/
def WriteFails : Event Call.Answer → Prop
  | ⟨.fsWrite _, .error _ _⟩ => True
  | ⟨.fsWrite data, .stored written _⟩ => written < data.length
  | _ => False

/-- Answers by which a download, up to closing the file, has failed. -/
def DownloadFails : Event Call.Answer → Prop
  | ⟨.getaddrinfo _ _, (ret, _)⟩ => ret ≠ 0
  | ⟨.socket, sock⟩ => sock < 0
  | ⟨.connect _ _, ret⟩ => ret < 0
  | ⟨.httpClientReq _ _ _, answer⟩ =>
      answer.ret < 0 ∨ answer.reports = [] ∨
        ∃ report ∈ answer.reports, report.rsp.httpStatusCode ≠ 200
  | ⟨.fsWrite data, answer⟩ => WriteFails ⟨.fsWrite data, answer⟩
  | _ => False

/-- The fragments the reports have for the file. -/
def fragments (reports : List Report) : List (List UInt8) :=
  reports.flatMap fun report =>
    if report.rsp.body = [] then [] else [report.rsp.body]

/-- The reports the client made in an event. -/
def Event.reports : Event Call.Answer → List Report
  | ⟨.httpClientReq _ _ _, answer⟩ => answer.reports
  | _ => []

/-- The body the client delivered in a trace. -/
def deliveredBody (trace : Trace) : List UInt8 :=
  (trace.flatMap Event.reports).flatMap fun report => report.rsp.body

/-- What one write stored. -/
def Event.stored : Event Call.Answer → Option (List UInt8)
  | ⟨.fsWrite _, .error _ _⟩ => some []
  | ⟨.fsWrite data, .stored written _⟩ => some (data.take written)
  | _ => none

/-- The calls made while the client delivers its reports. -/
def MadeByCallback : Call → Prop
  | .fsWrite _ | .kUptimeGet | .shellFprintf _ => True
  | _ => False

section Delivery

variable {sha256 : List UInt8 → Digest} {ctx : DownloadCtx} {world : World}
variable {path : CString} {old front : List UInt8} {reports : List Report}

/-- The part of the file that the download has rewritten is `front`; beyond it
the old content is still there. -/
structure Saved (path : CString) (old front : List UInt8) (world : World) :
    Prop where
  file : world.file = some ⟨path, front.length⟩
  found : world.files path = some (front ++ old.drop front.length)

theorem CallbackOutcome.quiet {printing : Trace}
    (prints : ∀ event ∈ printing, ReportsProgress event.call) :
    (∀ event ∈ printing, ¬ WriteFails event) ∧
      printing.filterMap Event.stored = [] := by
  constructor
  · rintro ⟨call, answer⟩ member
    have isProgress := prints _ member
    cases call <;> first | exact not_false | exact isProgress.elim
  · apply List.filterMap_eq_nil_iff.mpr
    rintro ⟨call, answer⟩ member
    have isProgress := prints _ member
    cases call <;> first | rfl | exact isProgress.elim

theorem CallbackOutcome.calls {body : List UInt8} {trace : Trace}
    {result : Int × DownloadCtx} {after : World}
    (outcome : CallbackOutcome ctx body world trace result after) :
    ∀ event ∈ trace, MadeByCallback event.call := by
  have printing {printing : Trace}
      (prints : ∀ event ∈ printing, ReportsProgress event.call) :
      ∀ event ∈ printing, MadeByCallback event.call := by
    rintro ⟨call, answer⟩ member
    have isProgress := prints _ member
    cases call <;> first | exact isProgress | exact isProgress.elim
  cases outcome with
  | nothing noBody prints counted => exact printing prints
  | refused someBody code negative counted =>
      intro event member
      obtain rfl := List.mem_singleton.mp member
      trivial
  | stored someBody written fits opened found prints counted =>
      intro event member
      rcases List.mem_cons.mp member with rfl | member
      · trivial
      · exact printing prints event member

/-- Whether every fragment was stored completely shows in the writes. -/
theorem deliverReports_ensures :
    Ensures (environment sha256) (deliverReports reports ctx) world
      fun trace _ _ => (∀ event ∈ trace, MadeByCallback event.call) ∧
        ((∀ event ∈ trace, ¬ WriteFails event) ↔
          trace.filterMap Event.stored = fragments reports) := by
  induction reports generalizing ctx world with
  | nil =>
      unfold deliverReports
      simp [fragments]
  | cons report reports ih =>
      unfold deliverReports
      rw [ensures_bind]
      refine httpDlResponseCb_ensures.mono ?_
      intro trace result after outcome
      have calls := outcome.calls
      have fragments_cons : fragments (report :: reports) =
          (if report.rsp.body = [] then [] else [report.rsp.body]) ++
            fragments reports := rfl
      cases outcome with
      | nothing noBody prints counted =>
          obtain ⟨noFailure, noneStored⟩ := CallbackOutcome.quiet prints
          refine ih.mono fun rest ctx'' last ⟨restCalls, same⟩ => ⟨?_, ?_⟩
          · exact List.forall_mem_append.mpr ⟨calls, restCalls⟩
          · rw [fragments_cons, if_pos noBody, List.filterMap_append,
              noneStored, List.nil_append, List.nil_append, ← same,
              List.forall_mem_append]
            exact and_iff_right noFailure
      | refused someBody code negative counted =>
          dsimp only
          rw [if_pos negative, ensures_pure, List.append_nil]
          refine ⟨calls, ?_⟩
          rw [fragments_cons, if_neg someBody]
          simp [WriteFails, Event.stored, Ne.symm someBody]
      | stored someBody written fits opened found prints counted =>
          obtain ⟨noFailure, noneStored⟩ := CallbackOutcome.quiet prints
          refine ih.mono fun rest ctx'' last ⟨restCalls, same⟩ => ⟨?_, ?_⟩
          · exact List.forall_mem_append.mpr ⟨calls, restCalls⟩
          · have whole : ¬ written < report.rsp.body.length ↔
                report.rsp.body.take written = report.rsp.body := by
              rw [List.take_eq_self_iff, not_lt]
            rw [fragments_cons, if_neg someBody, List.cons_append,
              List.filterMap_cons_some (rfl : Event.stored _ = some _),
              List.filterMap_append, noneStored, List.nil_append,
              List.singleton_append, List.cons.injEq, ← same, ← whole,
              List.forall_mem_cons, List.forall_mem_append,
              and_iff_right noFailure]
            rfl

/-- Writes that store everything rewrite the front of the file. -/
theorem deliverReports_saves (saved : Saved path old front world) :
    Ensures (environment sha256) (deliverReports reports ctx) world
      fun trace _ after => (∀ event ∈ trace, ¬ WriteFails event) →
        Saved path old
          (front ++ reports.flatMap fun report => report.rsp.body) after := by
  induction reports generalizing ctx world front with
  | nil =>
      unfold deliverReports
      simpa using saved
  | cons report reports ih =>
      unfold deliverReports
      rw [ensures_bind]
      refine httpDlResponseCb_ensures.mono ?_
      intro trace result after outcome
      rw [List.flatMap_cons, ← List.append_assoc]
      cases outcome with
      | nothing noBody prints counted =>
          rw [noBody, List.append_nil]
          refine (ih saved).mono fun rest ctx'' last restSaves full => ?_
          exact restSaves fun event member =>
            full event (List.mem_append_right _ member)
      | refused someBody code negative counted =>
          dsimp only
          rw [if_pos negative, ensures_pure, List.append_nil]
          intro full
          exact (full _ (List.mem_singleton_self _) trivial).elim
      | @stored printing _ _ written fits file content opened found prints
          counted =>
          obtain rfl : _ = file := Option.some.inj (saved.file.symm.trans opened)
          obtain rfl : _ = content :=
            Option.some.inj (saved.found.symm.trans found)
          by_cases whole : written < report.rsp.body.length
          · intro rest ctx'' last _ full
            exact (full ⟨.fsWrite report.rsp.body, .stored written fits⟩
              (by simp) whole).elim
          · have takes : report.rsp.body.take written = report.rsp.body :=
              List.take_of_length_le (not_lt.mp whole)
            rw [takes]
            have savedMore : Saved path old (front ++ report.rsp.body)
                (world.store ⟨path, front.length⟩
                  (front ++ old.drop front.length) report.rsp.body) :=
              ⟨by simp [World.store],
                by simp only [World.store, Function.update_self,
                  overwrite_front]⟩
            refine (ih savedMore).mono fun rest ctx'' last restSaves full => ?_
            exact restSaves fun event member =>
              full event (List.mem_append_right _ member)

end Delivery

section Request

/-- The calls that make the connection and give it up. -/
def MadeByConnecting : Call → Prop
  | .getaddrinfo _ _ | .socket | .connect _ _ | .errno | .close _ => True
  | _ => False

variable {sha256 : List UInt8 → Digest} {ctx : DownloadCtx} {world : World}

/-- What one `http_dl_get_req` comes to: it fails before it asks the client for
anything, or the client's reports are delivered. -/
inductive GetReqOutcome (sha256 : List UInt8 → Digest) (ctx : DownloadCtx)
    (world : World) : Trace → World → Prop where
  | unconnected {trace : Trace}
      (calls : ∀ event ∈ trace, MadeByConnecting event.call)
      (failed : ∃ event ∈ trace, DownloadFails event) :
      GetReqOutcome sha256 ctx world trace world
  | answered {opening delivering : Trace} {sock : Int} {req : HttpRequest}
      {timeout : Int} {answer : ClientAnswer} {ctx' : DownloadCtx}
      {after : World}
      (calls : ∀ event ∈ opening, MadeByConnecting event.call)
      (noFailure : ∀ event ∈ opening, ¬ DownloadFails event)
      (connected : ∃ sock addr, ∃ ret : Int,
        (⟨.connect sock addr, ret⟩ : Event Call.Answer) ∈ opening ∧ 0 ≤ ret)
      (delivers : Runs (environment sha256) (deliverReports answer.reports ctx)
        world delivering ctx' after) :
      GetReqOutcome sha256 ctx world
        (opening ++ ⟨.httpClientReq sock req timeout, answer⟩ ::
          (delivering ++ [⟨.close sock, ()⟩])) after

theorem httpDlGetReq_ensures {req : HttpRequest} {hostname port : CString} :
    Ensures (environment sha256) (httpDlGetReq req hostname port ctx) world
      fun trace _ after => GetReqOutcome sha256 ctx world trace after := by
  unfold httpDlGetReq httpDlSocketConnect httpDlSocketInit
  simp only [ensures_bind, ensures_request]
  rintro ⟨ret, addr⟩ started rfl
  dsimp only
  split
  case isTrue failed =>
    rw [ensures_pure]
    dsimp only
    rw [if_pos (.inr (by decide)), ensures_pure]
    dsimp only
    rw [if_pos (by decide), ensures_pure]
    refine .unconnected ?_ ⟨⟨.getaddrinfo hostname port, (ret, addr)⟩, ?_, failed⟩
    · simp [MadeByConnecting]
    · simp
  case isFalse resolved =>
  have resolvedOk : ret = 0 := not_not.mp resolved
  simp only [ensures_bind, ensures_request, ensures_pure]
  rintro (sock : Int) _ rfl
  split
  case isTrue failed =>
    have noSocket : sock < 0 := failed.resolve_left (by omega)
    simp only [ensures_pure]
    rw [if_pos noSocket, ensures_pure]
    refine .unconnected ?_ ⟨⟨.socket, sock⟩, ?_, noSocket⟩
    · simp [MadeByConnecting]
    · simp
  case isFalse socketOk =>
  rw [not_or] at socketOk
  simp only [ensures_bind, ensures_request]
  rintro (connectRet : Int) _ rfl
  split
  case isTrue failed =>
    simp only [ensures_bind, ensures_request, ensures_pure]
    rintro _ _ rfl errno _ rfl
    rw [if_pos (by decide), ensures_pure]
    refine .unconnected ?_ ⟨⟨.connect sock addr, connectRet⟩, ?_, failed⟩
    · simp [MadeByConnecting]
    · simp
  case isFalse connectOk =>
  rw [ensures_pure]
  dsimp only
  rw [if_neg socketOk.2]
  unfold httpClientReq
  simp only [ensures_bind, ensures_request, ensures_pure]
  rintro answer asked rfl delivering ctx' after delivers _ closed rfl
  have outcome : GetReqOutcome sha256 ctx asked
      ([⟨.getaddrinfo hostname port, (ret, addr)⟩, ⟨.socket, sock⟩,
          ⟨.connect sock addr, connectRet⟩] ++
        ⟨.httpClientReq sock req requestTimeout, answer⟩ ::
          (delivering ++ [⟨.close sock, ()⟩])) closed := by
    refine .answered ?_ ?_ ⟨sock, addr, connectRet, by simp, ?_⟩ delivers
    · simp [MadeByConnecting]
    · simp [DownloadFails, resolvedOk, socketOk, Int.not_lt.mp connectOk]
    · exact Int.not_lt.mp connectOk
  simpa using outcome

/-- The connection was made, the request answered without error and with
status 200, and every fragment of the body stored completely. -/
structure Downloaded (trace : Trace) : Prop where
  connected : ∃ sock addr, ∃ ret : Int,
    (⟨.connect sock addr, ret⟩ : Event Call.Answer) ∈ trace ∧ 0 ≤ ret
  answered : ∃ sock req timeout, ∃ answer : ClientAnswer,
    (⟨.httpClientReq sock req timeout, answer⟩ : Event Call.Answer) ∈ trace ∧
      0 ≤ answer.ret ∧ answer.reports ≠ [] ∧
      (∀ report ∈ answer.reports, report.rsp.httpStatusCode = 200) ∧
      trace.filterMap Event.stored = fragments answer.reports

theorem connecting_quiet {trace : Trace}
    (calls : ∀ event ∈ trace, MadeByConnecting event.call) :
    trace.filterMap Event.stored = [] ∧ trace.flatMap Event.reports = [] := by
  constructor
  · apply List.filterMap_eq_nil_iff.mpr
    rintro ⟨call, answer⟩ member
    have connecting := calls _ member
    cases call <;> first | rfl | exact connecting.elim
  · apply List.flatMap_eq_nil_iff.mpr
    rintro ⟨call, answer⟩ member
    have connecting := calls _ member
    cases call <;> first | rfl | exact connecting.elim

theorem callback_reports {trace : Trace}
    (calls : ∀ event ∈ trace, MadeByCallback event.call) :
    trace.flatMap Event.reports = [] := by
  apply List.flatMap_eq_nil_iff.mpr
  rintro ⟨call, answer⟩ member
  have byCallback := calls _ member
  cases call <;> first | rfl | exact byCallback.elim

theorem downloadFails_iff_of_callback {event : Event Call.Answer}
    (byCallback : MadeByCallback event.call) :
    DownloadFails event ↔ WriteFails event := by
  rcases event with ⟨call, answer⟩
  cases call <;> first | exact Iff.rfl | exact byCallback.elim

theorem clientAnswer_ok_iff {sock timeout : Int} {req : HttpRequest}
    {answer : ClientAnswer} :
    ¬ DownloadFails ⟨.httpClientReq sock req timeout, answer⟩ ↔
      0 ≤ answer.ret ∧ answer.reports ≠ [] ∧
        ∀ report ∈ answer.reports, report.rsp.httpStatusCode = 200 := by
  simp [DownloadFails]

/-- The trace of an answered request shows a completed download exactly if it
shows no failure. -/
theorem GetReqOutcome.downloaded_iff {trace : Trace} {after : World}
    (outcome : GetReqOutcome sha256 ctx world trace after) :
    Downloaded trace ↔ ∀ event ∈ trace, ¬ DownloadFails event := by
  cases outcome with
  | unconnected calls failed =>
      constructor
      · rintro ⟨-, sock, req, timeout, answer, member, -⟩
        exact (calls _ member).elim
      · intro noFailure
        obtain ⟨event, member, fails⟩ := failed
        exact (noFailure event member fails).elim
  | @answered opening delivering sock req timeout answer ctx' _ calls noFailure
      connected delivers =>
      obtain ⟨byCallback, stores⟩ := deliverReports_ensures _ _ _ delivers
      have stored : List.filterMap Event.stored
          (opening ++ ⟨.httpClientReq sock req timeout, answer⟩ ::
            (delivering ++ [⟨.close sock, ()⟩])) =
          delivering.filterMap Event.stored := by
        rw [List.filterMap_append, (connecting_quiet calls).1, List.nil_append,
          List.filterMap_cons_none rfl, List.filterMap_append]
        exact List.append_nil _
      have noWriteFails : (∀ event ∈ delivering, ¬ DownloadFails event) ↔
          delivering.filterMap Event.stored = fragments answer.reports := by
        rw [← stores]
        exact forall₂_congr fun event member =>
          not_congr (downloadFails_iff_of_callback (byCallback event member))
      constructor
      · rintro ⟨-, sock', req', timeout', answer', member, ok⟩
        have same : (⟨.httpClientReq sock' req' timeout', answer'⟩ :
            Event Call.Answer) = ⟨.httpClientReq sock req timeout, answer⟩ := by
          simp only [List.mem_append, List.mem_cons] at member
          rcases member with member | member | member | member | member
          · exact (calls _ member).elim
          · exact member
          · exact (byCallback _ member).elim
          · cases member
          · cases member
        cases same
        obtain ⟨ret, some, status, complete⟩ := ok
        rw [stored] at complete
        intro event member
        simp only [List.mem_append, List.mem_cons] at member
        rcases member with member | rfl | member | rfl | member
        · exact noFailure event member
        · exact clientAnswer_ok_iff.mpr ⟨ret, some, status⟩
        · exact noWriteFails.mpr complete event member
        · exact not_false
        · cases member
      · intro succeeds
        obtain ⟨sock', addr, connectRet, member, ok⟩ := connected
        have clientOk : ¬ DownloadFails
            ⟨.httpClientReq sock req timeout, answer⟩ :=
          succeeds _ (by simp)
        obtain ⟨ret, some, status⟩ := clientAnswer_ok_iff.mp clientOk
        refine ⟨⟨sock', addr, connectRet, List.mem_append_left _ member, ok⟩,
          sock, req, timeout, answer, by simp, ret, some, status, ?_⟩
        rw [stored, ← noWriteFails]
        exact fun event member => succeeds event (by simp [member])

/-- With complete writes the rewritten part of the file is the body. -/
theorem GetReqOutcome.saves {path : CString} {old : List UInt8} {trace : Trace}
    {after : World} (outcome : GetReqOutcome sha256 ctx world trace after)
    (saved : Saved path old [] world)
    (full : ∀ event ∈ trace, ¬ WriteFails event) :
    Saved path old (deliveredBody trace) after := by
  cases outcome with
  | unconnected calls failed =>
      rw [deliveredBody, (connecting_quiet calls).2]
      exact saved
  | @answered opening delivering sock req timeout answer ctx' _ calls noFailure
      connected delivers =>
      have byCallback := (deliverReports_ensures _ _ _ delivers).1
      have body : deliveredBody (opening ++
          ⟨.httpClientReq sock req timeout, answer⟩ ::
            (delivering ++ [⟨.close sock, ()⟩])) =
          answer.reports.flatMap fun report => report.rsp.body := by
        have reports : List.flatMap Event.reports
            (opening ++ ⟨.httpClientReq sock req timeout, answer⟩ ::
              (delivering ++ [⟨.close sock, ()⟩])) = answer.reports := by
          rw [List.flatMap_append, (connecting_quiet calls).2,
            List.nil_append, List.flatMap_cons, List.flatMap_append,
            callback_reports byCallback]
          exact List.append_nil _
        rw [deliveredBody, reports]
      rw [body]
      refine deliverReports_saves saved _ _ _ delivers fun event member => ?_
      exact full event (by simp [member])

end Request

section File

variable {sha256 : List UInt8 → Digest} {before after : World} {fuel : Nat}
variable {hostname port path savePath : CString} {trace : Trace} {ret : Int}

/-- The path a download saves to. -/
abbrev savedAt (savePath : CString) : CString :=
  snprintfFullPath fatfsGetRootPath savePath

/-- What a download does after its request. -/
def closing (fullPath : CString) (hashing : Trace) (hash : Digest) : Trace :=
  ⟨.fsClose, ()⟩ ::
    (hashing ++ [⟨.printk (sha256Line hash fullPath), ()⟩])

/-- What one download comes to: the file cannot be opened, or everything else
is done and 0 returned, whatever the other calls answer. -/
inductive DownloadOutcome (sha256 : List UInt8 → Digest) (fullPath : CString)
    (before : World) : Trace → Int → World → Prop where
  | refused (ret : Int) (negative : ret < 0) :
      DownloadOutcome sha256 fullPath before [⟨.fsOpen fullPath saveFlags, ret⟩]
        ret before
  | opened {ret : Int} {requesting hashing : Trace} {loaded after : World}
      {content : List UInt8} {hash : Digest} {rc : Int}
      (openOk : 0 ≤ ret)
      (outcome : GetReqOutcome sha256 .initial
        (before.openFile fullPath saveFlags) requesting loaded)
      (found : loaded.files fullPath = some content)
      (byHash : ∀ event ∈ hashing, MadeByHash event.call)
      (result : HashResult sha256 content hashing rc hash)
      (buffer : hash = hashing.foldl bufferAfter zeroDigest)
      (kept : after.files = loaded.files) :
      DownloadOutcome sha256 fullPath before
        ([⟨.fsOpen fullPath saveFlags, ret⟩] ++
          (requesting ++ closing fullPath hashing hash)) 0 after

/-- No call removes a file. -/
theorem isSome_of_answered {world : World} {call : Call} {answer : call.Answer}
    (filePath : CString) (exists_ : (world.files filePath).isSome)
    (answered : (environment sha256).answers world call answer after) :
    (after.files filePath).isSome := by
  have updated {other : CString} {content : List UInt8} :
      (Function.update world.files other (some content) filePath).isSome := by
    by_cases same : filePath = other
    · simp [same]
    · simpa [same] using exists_
  cases call with
  | fsOpen path flags =>
      simp only [environment] at answered
      split at answered
      · rwa [answered]
      · rw [answered.2]
        exact updated
  | fsWrite data =>
      cases answer with
      | error code negative =>
          have same : after = world := answered
          rwa [same]
      | stored written fits =>
          obtain ⟨file, content, -, -, rfl⟩ := answered
          exact updated
  | fsRead count =>
      cases answer with
      | error code negative =>
          have same : after = world := answered
          rwa [same]
      | data bytes fits =>
          obtain ⟨file, content, -, -, -, rfl⟩ := answered
          exact exists_
  | psaHashSetup | psaHashUpdate =>
      simp only [environment] at answered
      split at answered <;> rwa [answered]
  | psaHashFinish => rwa [answered.1]
  | fsClose =>
      have same : after = { world with file := none } := answered
      rwa [same]
  | getaddrinfo | socket | connect | errno | close | httpClientReq |
      kUptimeGet | shellFprintf | shellPrint | shellError | psaCryptoInit |
      psaHashAbort | printk =>
      have same : after = world := answered
      rwa [same]

theorem savedFile_remains {filePath : CString} {flags : OpenFlags} {α : Type}
    {program : DownloadProgram α} {result : α} {loaded : World}
    (runs : Runs (environment sha256) program (before.openFile filePath flags)
      trace result loaded) : ∃ content, loaded.files filePath = some content := by
  refine Option.isSome_iff_exists.mp (runs.invariant
    (fun world => (world.files filePath).isSome)
    (fun _ _ _ _ => isSome_of_answered filePath) ?_)
  simp [World.openFile]

theorem httpDlFile_ensures :
    Ensures (environment sha256)
      (httpDlFile fuel hostname port path savePath) before
      fun trace ret after =>
        DownloadOutcome sha256 (savedAt savePath) before trace ret after := by
  unfold httpDlFile printSha256Sum
  simp only [ensures_bind, ensures_request]
  rintro (ret : Int) opened answered
  split
  case isTrue negative =>
    obtain rfl : opened = before := by
      simpa [environment, show ret < 0 from negative] using answered
    rw [ensures_pure, List.append_nil]
    exact .refused ret negative
  case isFalse openOk =>
  simp only [environment, openOk, if_false] at answered
  obtain ⟨-, rfl⟩ := answered
  simp only [ensures_bind, ensures_request, ensures_pure]
  intro requesting result loaded requestRuns _ closed isClosed hashing checked
    hashed hashRuns _ printed isPrinted
  have isClosed : closed = { loaded with file := none } := isClosed
  have isPrinted : printed = hashed := isPrinted
  have outcome := httpDlGetReq_ensures _ _ _ requestRuns
  obtain ⟨content, found⟩ := savedFile_remains requestRuns
  have foundClosed : closed.files (savedAt savePath) = some content := by
    rw [isClosed]
    exact found
  obtain ⟨hashResult, buffer⟩ :=
    calculateFileSha256_ensures foundClosed _ _ _ hashRuns
  have byHash := hashRuns.issued calculateFileSha256_issues
  have kept : hashed.files = closed.files :=
    hashRuns.frame World.files
      (fun _ _ _ _ made answered => files_of_madeByHash made answered) byHash
  have keptFiles : printed.files = loaded.files := by
    rw [isPrinted, kept, isClosed]
  have whole := DownloadOutcome.opened (Int.not_lt.mp openOk) outcome found byHash
    hashResult buffer keptFiles
  simpa [closing] using whole

section Completion

variable {ctx : DownloadCtx} {world : World}

theorem printProgress_completes {finalData : HttpFinalCall} :
    Completes (environment sha256) (printProgress finalData ctx) world := by
  unfold printProgress
  refine completes_request_bind fun now _ _ => ?_
  split
  · refine completes_request_bind fun _ _ _ => ?_
    split
    · exact completes_request_bind fun _ _ _ => completes_pure
    · exact completes_pure
  · exact completes_pure

theorem httpDlResponseCb_completes {rsp : HttpResponse}
    {finalData : HttpFinalCall} :
    Completes (environment sha256) (httpDlResponseCb rsp finalData ctx)
      world := by
  have prints {ctx : DownloadCtx} {world : World} :
      Completes (environment sha256)
        (printProgress finalData ctx >>= fun ctx => pure ((0 : Int), ctx))
        world :=
    printProgress_completes.bind fun _ _ _ _ => completes_pure
  unfold httpDlResponseCb
  dsimp only
  split
  · apply completes_request_bind
    rintro (⟨code, negative⟩ | ⟨written, fits⟩) after -
    · exact completes_pure
    · exact prints
  · exact prints

theorem deliverReports_completes {reports : List Report} :
    Completes (environment sha256) (deliverReports reports ctx) world := by
  induction reports generalizing ctx world with
  | nil => exact completes_pure
  | cons report reports ih =>
      refine httpDlResponseCb_completes.bind fun _ result _ _ => ?_
      dsimp only
      split
      · exact completes_pure
      · exact ih

theorem httpDlGetReq_completes {req : HttpRequest} :
    Completes (environment sha256) (httpDlGetReq req hostname port ctx)
      world := by
  have initCompletes {sock : Int} {world : World} :
      Completes (environment sha256) (httpDlSocketInit hostname port sock)
        world := by
    refine completes_request_bind fun _ _ _ => ?_
    dsimp only
    split
    · exact completes_pure
    · exact completes_request_bind fun _ _ _ => completes_pure
  have connectCompletes {sock : Int} {world : World} :
      Completes (environment sha256) (httpDlSocketConnect hostname port sock)
        world := by
    refine initCompletes.bind fun _ _ _ _ => ?_
    dsimp only
    split
    · exact completes_pure
    refine completes_request_bind fun _ _ _ => ?_
    split
    · exact fun _ _ _ _ _ _ => completes_pure
    · exact completes_pure
  refine connectCompletes.bind fun _ _ _ _ => ?_
  dsimp only
  split
  · exact completes_pure
  have clientCompletes {sock : Int} {world : World} :
      Completes (environment sha256) (httpClientReq sock req requestTimeout ctx)
        world :=
    completes_request_bind fun _ _ _ =>
      deliverReports_completes.bind fun _ _ _ _ => completes_pure
  refine clientCompletes.bind fun _ _ _ _ => ?_
  exact completes_request_bind fun _ _ _ => completes_pure

/-- The download returns: a fuel beyond the length of what it saved never cuts
the checksum short. -/
theorem httpDlFile_completes
    (enough : Ensures (environment sha256)
      (httpDlGetReq (downloadRequest hostname path) hostname port .initial)
      (before.openFile (savedAt savePath) saveFlags)
      fun _ _ loaded => ∀ content, loaded.files (savedAt savePath) =
        some content → content.length < fuel) :
    Completes (environment sha256)
      (httpDlFile fuel hostname port path savePath) before := by
  unfold httpDlFile
  apply completes_request_bind
  rintro (ret : Int) opened answered
  split
  · exact completes_pure
  case isFalse openOk =>
  simp only [environment, openOk, if_false] at answered
  obtain ⟨-, rfl⟩ := answered
  refine httpDlGetReq_completes.bind fun requesting result loaded runs => ?_
  apply completes_request_bind
  rintro _ _ rfl
  refine Completes.bind ?_ fun _ _ _ _ => ?_
  · exact calculateFileSha256_completes fun content found =>
      enough _ _ _ runs content found
  · exact completes_request_bind fun _ _ _ => completes_pure

end Completion

/-- The calls of a download outside its request. -/
def OutsideRequest : Call → Prop
  | .fsOpen _ _ | .fsRead _ | .fsClose | .psaCryptoInit => True
  | .psaHashSetup | .psaHashUpdate _ | .psaHashFinish | .psaHashAbort => True
  | .printk _ => True
  | _ => False

/-- The calls of `http_dl_get_req`. -/
def MadeByRequest : Call → Prop
  | .getaddrinfo _ _ | .socket | .connect _ _ | .errno | .close _ => True
  | .httpClientReq _ _ _ | .fsWrite _ | .kUptimeGet | .shellFprintf _ => True
  | _ => False

theorem GetReqOutcome.calls {ctx : DownloadCtx} {world loaded : World}
    (outcome : GetReqOutcome sha256 ctx world trace loaded) :
    ∀ event ∈ trace, MadeByRequest event.call := by
  have ofConnecting {call : Call} (connecting : MadeByConnecting call) :
      MadeByRequest call := by
    cases call <;> trivial
  have ofCallback {call : Call} (byCallback : MadeByCallback call) :
      MadeByRequest call := by
    cases call <;> trivial
  cases outcome with
  | unconnected calls failed =>
      exact fun event member => ofConnecting (calls event member)
  | answered calls noFailure connected delivers =>
      have byCallback := (deliverReports_ensures _ _ _ delivers).1
      intro event member
      simp only [List.mem_append, List.mem_cons] at member
      rcases member with member | rfl | member | rfl | member
      · exact ofConnecting (calls event member)
      · trivial
      · exact ofCallback (byCallback event member)
      · trivial
      · cases member

theorem outsideRequest_of_madeByHash {call : Call} (made : MadeByHash call) :
    OutsideRequest call := by
  cases call <;> trivial

theorem not_downloadFails_of_outside {event : Event Call.Answer}
    (outside : OutsideRequest event.call) : ¬ DownloadFails event := by
  rcases event with ⟨call, answer⟩
  cases call <;> first | exact not_false | exact outside.elim

theorem outside_quiet (outside : ∀ event ∈ trace, OutsideRequest event.call) :
    trace.filterMap Event.stored = [] ∧ trace.flatMap Event.reports = [] := by
  constructor
  · apply List.filterMap_eq_nil_iff.mpr
    rintro ⟨call, answer⟩ member
    have isOutside := outside _ member
    cases call <;> first | rfl | exact isOutside.elim
  · apply List.flatMap_eq_nil_iff.mpr
    rintro ⟨call, answer⟩ member
    have isOutside := outside _ member
    cases call <;> first | rfl | exact isOutside.elim

theorem opening_outside (fullPath : CString) (ret : Int) :
    ∀ event ∈ [(⟨.fsOpen fullPath saveFlags, ret⟩ : Event Call.Answer)],
      OutsideRequest event.call := by
  intro event member
  obtain rfl := List.mem_singleton.mp member
  trivial

theorem closing_outside (fullPath : CString) (hash : Digest) {hashing : Trace}
    (byHash : ∀ event ∈ hashing, MadeByHash event.call) :
    ∀ event ∈ closing fullPath hashing hash, OutsideRequest event.call := by
  intro event member
  simp only [closing, List.mem_cons, List.mem_append] at member
  rcases member with rfl | member | rfl | member
  · trivial
  · exact outsideRequest_of_madeByHash (byHash event member)
  · trivial
  · cases member

section Surrounding

variable {opening closing : Trace}
variable (opens : ∀ event ∈ opening, OutsideRequest event.call)
variable (closes : ∀ event ∈ closing, OutsideRequest event.call)

include opens closes

/-- What surrounds the request delivers nothing. -/
theorem deliveredBody_surrounded :
    deliveredBody (opening ++ (trace ++ closing)) = deliveredBody trace := by
  have reports : (opening ++ (trace ++ closing)).flatMap Event.reports =
      trace.flatMap Event.reports := by
    rw [List.flatMap_append, List.flatMap_append, (outside_quiet opens).2,
      (outside_quiet closes).2, List.nil_append, List.append_nil]
  rw [deliveredBody, reports, deliveredBody]

/-- What surrounds the request makes no difference to the download. -/
theorem downloaded_surrounded_iff :
    Downloaded (opening ++ (trace ++ closing)) ↔ Downloaded trace := by
  have stored : (opening ++ (trace ++ closing)).filterMap Event.stored =
      trace.filterMap Event.stored := by
    rw [List.filterMap_append, List.filterMap_append, (outside_quiet opens).1,
      (outside_quiet closes).1, List.nil_append, List.append_nil]
  have inside {event : Event Call.Answer}
      (member : event ∈ opening ++ (trace ++ closing))
      (request : ¬ OutsideRequest event.call) : event ∈ trace := by
    rw [List.mem_append, List.mem_append] at member
    rcases member with member | member | member
    · exact (request (opens event member)).elim
    · exact member
    · exact (request (closes event member)).elim
  constructor
  · rintro ⟨⟨sock, addr, ret, member, ok⟩,
      sock', req, timeout, answer, asked, rest⟩
    rw [stored] at rest
    exact ⟨⟨sock, addr, ret, inside member id, ok⟩,
      sock', req, timeout, answer, inside asked id, rest⟩
  · rintro ⟨⟨sock, addr, ret, member, ok⟩,
      sock', req, timeout, answer, asked, rest⟩
    rw [← stored] at rest
    exact ⟨⟨sock, addr, ret, by simp [member], ok⟩,
      sock', req, timeout, answer, by simp [asked], rest⟩

/-- Nor does it add a failure. -/
theorem noDownloadFailure_surrounded_iff :
    (∀ event ∈ opening ++ (trace ++ closing), ¬ DownloadFails event) ↔
      ∀ event ∈ trace, ¬ DownloadFails event := by
  constructor
  · exact fun noFailure event member => noFailure event (by simp [member])
  · intro noFailure event member
    rw [List.mem_append, List.mem_append] at member
    rcases member with member | member | member
    · exact not_downloadFails_of_outside (opens event member)
    · exact noFailure event member
    · exact not_downloadFails_of_outside (closes event member)

end Surrounding

/-- The content of the file after a download in which every write stored all
its data is the body exactly if the file was not longer before. -/
theorem saved_file_is_body_iff
    (runs : Runs (environment sha256)
      (httpDlFile fuel hostname port path savePath) before trace ret after)
    (openOk : ∃ rc : Int, 0 ≤ rc ∧
      (⟨.fsOpen (savedAt savePath) saveFlags, rc⟩ : Event Call.Answer) ∈ trace)
    (full : ∀ event ∈ trace, ¬ WriteFails event) :
    after.files (savedAt savePath) = some (deliveredBody trace) ↔
      ((before.files (savedAt savePath)).getD []).length ≤
        (deliveredBody trace).length := by
  cases httpDlFile_ensures _ _ _ runs with
  | refused _ negative =>
      obtain ⟨rc, ok, member⟩ := openOk
      cases List.mem_singleton.mp member
      omega
  | @opened ret requesting hashing loaded _ content hash rc _ outcome found
      byHash result buffer kept =>
      have saved : Saved (savedAt savePath)
          ((before.files (savedAt savePath)).getD []) []
          (before.openFile (savedAt savePath) saveFlags) :=
        ⟨rfl, by simp [World.openFile, saveFlags]⟩
      have rewritten := (outcome.saves saved fun event member =>
        full event (by simp [member])).found
      rw [deliveredBody_surrounded (opening_outside _ ret)
        (closing_outside _ hash byHash), kept, rewritten, Option.some.injEq,
        append_drop_eq_self_iff]

end File

section SampleDownload

/-- A body that comes in one fragment, which fits the receive buffer. -/
structure Fragment where
  body : List UInt8
  something : 0 < body.length
  fits : body.length ≤ readBufferSize.toNat

variable (fragment : Fragment) {before : World}

/-- A response with status 200 that brings the fragment. -/
def Fragment.answer : ClientAnswer where
  reports := [⟨⟨false, 0, true, fragment.body,
    Nat.lt_of_le_of_lt fragment.fits (by decide), 200⟩, .dataMore⟩]
  ret := 1

/-- The calls of the callback, which stores the fragment completely. -/
def Fragment.delivering : Trace :=
  [⟨.fsWrite fragment.body, WriteAnswer.stored _ (Nat.le_refl _)⟩,
    ⟨.kUptimeGet, (0 : Int)⟩]

/-- The calls of a request that is answered so. -/
def Fragment.request : Trace :=
  [⟨.getaddrinfo [] [], ((0 : Int), ([] : List UInt8))⟩,
    ⟨.socket, (3 : Int)⟩, ⟨.connect 3 [], (0 : Int)⟩,
    ⟨.httpClientReq 3 (downloadRequest [] []) requestTimeout,
      fragment.answer⟩] ++ (fragment.delivering ++ [⟨.close 3, ()⟩])

/-- What the file holds at the end of the request. -/
def Fragment.stored (old : List UInt8) : List UInt8 :=
  overwrite old 0 fragment.body

/-- Every path names a file with the content `old`. -/
def cardWith (old : List UInt8) : World :=
  ⟨fun _ => some old, none, []⟩

/-- The world at the end of the request. -/
def Fragment.loaded (before : World) : World :=
  (before.openFile (savedAt []) saveFlags).store ⟨savedAt [], 0⟩
    ((before.files (savedAt [])).getD []) fragment.body

@[simp]
theorem Fragment.loaded_files :
    (fragment.loaded before).files (savedAt []) =
      some (fragment.stored ((before.files (savedAt [])).getD [])) := by
  simp [loaded, World.store, stored]

/-- The context once the fragment is counted. -/
def Fragment.counted : DownloadCtx :=
  { DownloadCtx.initial with totalWritten := 0 + UInt32.ofNat fragment.body.length }

/-- The callback stores the fragment and prints nothing yet. -/
theorem Fragment.delivered :
    Runs (environment Sha256.hash)
      (deliverReports fragment.answer.reports .initial)
      (before.openFile (savedAt []) saveFlags) fragment.delivering
      fragment.counted (fragment.loaded before) := by
  have writes : (environment Sha256.hash).answers
      (before.openFile (savedAt []) saveFlags) (.fsWrite fragment.body)
      (WriteAnswer.stored _ (Nat.le_refl _)) (fragment.loaded before) := by
    refine ⟨⟨savedAt [], 0⟩, (before.files (savedAt [])).getD [], rfl, ?_, ?_⟩
    · simp [World.openFile, saveFlags]
    · rw [List.take_length]
      rfl
  unfold Fragment.answer deliverReports httpDlResponseCb
  dsimp only
  rw [if_pos ⟨rfl, fragment.something⟩]
  apply Runs.call _ writes
  apply Runs.call
  · exact rfl
  exact .done _ _

theorem Fragment.request_runs :
    Runs (environment Sha256.hash)
      (httpDlGetReq (downloadRequest [] []) [] [] .initial)
      (before.openFile (savedAt []) saveFlags) fragment.request
      (0, fragment.counted) (fragment.loaded before) := by
  have asks : Runs (environment Sha256.hash)
      (httpClientReq 3 (downloadRequest [] []) requestTimeout .initial)
      (before.openFile (savedAt []) saveFlags)
      (⟨.httpClientReq 3 (downloadRequest [] []) requestTimeout,
        fragment.answer⟩ :: (fragment.delivering ++ []))
      (fragment.answer.ret, fragment.counted) (fragment.loaded before) := by
    apply Runs.call
    · exact rfl
    apply fragment.delivered.bind
    exact .done _ _
  apply Runs.call
  · exact rfl
  apply Runs.call
  · exact rfl
  apply Runs.call
  · exact rfl
  apply asks.bind
  apply Runs.call
  · exact rfl
  exact .done _ _

/-- The download in which the checksum cannot be started. -/
def Fragment.unchecked : Trace :=
  ⟨.fsOpen (savedAt []) saveFlags, (0 : Int)⟩ :: (fragment.request ++
    [⟨.fsClose, ()⟩, ⟨.psaCryptoInit, (1 : Int)⟩,
      ⟨.printk (sha256Line zeroDigest (savedAt [])), ()⟩])

theorem Fragment.unchecked_runs :
    Runs (environment Sha256.hash) (httpDlFile 2 [] [] [] []) before
      fragment.unchecked 0 { fragment.loaded before with file := none } := by
  apply Runs.call
  · exact ⟨fun keeps => absurd keeps (by decide), rfl⟩
  apply fragment.request_runs.bind
  apply Runs.call
  · exact rfl
  apply Runs.call
  · exact rfl
  apply Runs.call
  · exact rfl
  exact .done _ _

theorem Fragment.unchecked_opened : ∃ rc : Int, 0 ≤ rc ∧
    (⟨.fsOpen (savedAt []) saveFlags, rc⟩ : Event Call.Answer) ∈
      fragment.unchecked :=
  ⟨0, Int.le_refl 0, List.mem_cons_self⟩

theorem Fragment.unchecked_full :
    ∀ event ∈ fragment.unchecked, ¬ WriteFails event := by
  simp [unchecked, request, delivering, WriteFails]

def shortBody : Fragment := ⟨[3], by decide, by decide⟩

def longBody : Fragment := ⟨[3, 4], by decide, by decide⟩

/-- A body of two bytes replaces a file of one byte. -/
theorem shorter_file_becomes_body :
    Runs (environment Sha256.hash) (httpDlFile 2 [] [] [] []) (cardWith [1])
        longBody.unchecked 0 { longBody.loaded (cardWith [1]) with file := none } ∧
      (longBody.loaded (cardWith [1])).files (savedAt []) = some [3, 4] := by
  have runs : Runs (environment Sha256.hash) (httpDlFile 2 [] [] [] [])
      (cardWith [1]) longBody.unchecked 0 _ := longBody.unchecked_runs
  exact ⟨runs, (saved_file_is_body_iff runs longBody.unchecked_opened
    longBody.unchecked_full).mpr (by decide)⟩

/-- A body of one byte leaves the second byte of an older file in place. -/
theorem longer_file_keeps_its_tail :
    Runs (environment Sha256.hash) (httpDlFile 2 [] [] [] []) (cardWith [1, 2])
        shortBody.unchecked 0 { shortBody.loaded (cardWith [1, 2]) with file := none } ∧
      (∀ event ∈ shortBody.unchecked, ¬ WriteFails event) ∧
      deliveredBody shortBody.unchecked = [3] ∧
      (shortBody.loaded (cardWith [1, 2])).files (savedAt []) = some [3, 2] :=
  ⟨shortBody.unchecked_runs, shortBody.unchecked_full, rfl, shortBody.loaded_files⟩

end SampleDownload

end HttpDl

end SzpiSta
