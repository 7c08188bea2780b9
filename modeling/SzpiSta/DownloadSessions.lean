import SzpiSta.HttpDlFile

/-!
# The files of the card after many downloads

Whatever a download meets, it changes the file it saves to and no other, and
that file by writing what the card accepted over its front.  So after any number
of `http_dl` commands a file is what was there at first under the layers of the
downloads that were saved to it.
-/

namespace SzpiSta

namespace HttpDl

open ExternalCalls ExternalCalls.Program Overwriting TransitionPaths

/-- The bytes that the writes of a trace stored, one after another. -/
def storedBytes (trace : Trace) : List UInt8 :=
  (trace.filterMap Event.stored).flatten

/-- The content of a file, which is empty if there is no such file. -/
def World.contentAt (world : World) (path : CString) : List UInt8 :=
  (world.files path).getD []

/-- One `http_dl` command, the calls it made and the value it returned. -/
structure DownloadCommand where
  fuel : Nat
  command : CString
  hostname : CString
  port : CString
  path : CString
  savePath : CString
  more : List CString
  trace : Trace
  ret : Int

def DownloadStep (sha256 : List UInt8 → Digest) (before : World)
    (download : DownloadCommand) (after : World) : Prop :=
  Runs (environment sha256)
    (cmdHttpDl download.fuel (download.command :: download.hostname ::
      download.port :: download.path :: download.savePath :: download.more))
    before download.trace download.ret after

/-- The line of a `printk`. -/
def Event.printed : Event Call.Answer → Option CString
  | ⟨.printk line, _⟩ => some line
  | _ => none

/-- What the download stored, if it was saved to this file. -/
def DownloadCommand.layerAt (file : CString) (download : DownloadCommand) :
    Option (List UInt8) :=
  if savedAt download.savePath = file then some (storedBytes download.trace)
  else none

section Storing

variable {sha256 : List UInt8 → Digest} {ctx : DownloadCtx} {world : World}
variable {files : CString → Option (List UInt8)} {path : CString}
variable {front : List UInt8} {reports : List Report} {first rest trace : Trace}

theorem storedBytes_append :
    storedBytes (first ++ rest) = storedBytes first ++ storedBytes rest := by
  rw [storedBytes, List.filterMap_append, List.flatten_append]
  rfl

theorem storedBytes_of_none (none : trace.filterMap Event.stored = []) :
    storedBytes trace = [] := by
  rw [storedBytes, none]
  rfl

theorem fragments_flatten :
    (fragments reports).flatten = reports.flatMap fun report => report.rsp.body := by
  induction reports with
  | nil => rfl
  | cons report reports ih =>
      rw [fragments, List.flatMap_cons, List.flatten_append, ← fragments, ih,
        List.flatMap_cons]
      by_cases noBody : report.rsp.body = []
      · rw [if_pos noBody, noBody]
        rfl
      · rw [if_neg noBody, List.flatten_singleton]

theorem storedBytes_write {data : List UInt8} {written : Nat}
    {fits : written ≤ data.length} :
    storedBytes [⟨.fsWrite data, WriteAnswer.stored written fits⟩] =
      data.take written :=
  List.append_nil _

/-- The front of one file has been rewritten, and nothing else. -/
structure Rewritten (files : CString → Option (List UInt8)) (path : CString)
    (front : List UInt8) (world : World) : Prop where
  file : world.file = some ⟨path, front.length⟩
  files : world.files = Function.update files path
    (some (overwrite ((files path).getD []) 0 front))

/-- One more write. -/
theorem Rewritten.store {file : OpenFile} {content data : List UInt8}
    (rewritten : Rewritten files path front world)
    (opened : world.file = some file)
    (found : world.files file.path = some content) :
    Rewritten files path (front ++ data) (world.store file content data) := by
  obtain rfl : _ = file := Option.some.inj (rewritten.file.symm.trans opened)
  have here : content = overwrite ((files path).getD []) 0 front := by
    rw [rewritten.files, Function.update_self] at found
    exact (Option.some.inj found).symm
  constructor
  · simp [World.store]
  · simp only [World.store, rewritten.files, Function.update_idem, here,
      overwrite_zero, overwrite_front]

/-- Whatever the writes store, it follows what was stored before. -/
theorem deliverReports_rewrites (rewritten : Rewritten files path front world) :
    Ensures (environment sha256) (deliverReports reports ctx) world
      fun trace _ after =>
        Rewritten files path (front ++ storedBytes trace) after := by
  induction reports generalizing ctx world front with
  | nil =>
      unfold deliverReports
      rw [ensures_pure, storedBytes_of_none rfl, List.append_nil]
      exact rewritten
  | cons report reports ih =>
      unfold deliverReports
      rw [ensures_bind]
      refine httpDlResponseCb_ensures.mono ?_
      intro trace result after outcome
      cases outcome with
      | nothing noBody prints counted =>
          have silent := storedBytes_of_none (CallbackOutcome.quiet prints).2
          refine (ih rewritten).mono fun rest ctx'' last restRewrites => ?_
          rwa [storedBytes_append, silent, List.nil_append]
      | refused someBody code negative counted =>
          dsimp only
          rw [if_pos negative, ensures_pure, List.append_nil]
          have silent : storedBytes
              [⟨.fsWrite report.rsp.body, WriteAnswer.error code negative⟩] = [] :=
            rfl
          rwa [silent, List.append_nil]
      | @stored printing _ _ written fits file content opened found prints
          counted =>
          have silent := storedBytes_of_none (CallbackOutcome.quiet prints).2
          refine (ih (rewritten.store opened found)).mono
            fun rest ctx'' last restRewrites => ?_
          rw [List.append_assoc] at restRewrites
          have stored : storedBytes
              (⟨.fsWrite report.rsp.body, WriteAnswer.stored written fits⟩ ::
                printing ++ rest) =
              report.rsp.body.take written ++ storedBytes rest := by
            rw [storedBytes_append, ← List.singleton_append, storedBytes_append,
              silent, List.append_nil, storedBytes_write]
          rwa [stored]

theorem storedBytes_answered {opening delivering : Trace} {sock timeout : Int}
    {req : HttpRequest} {answer : ClientAnswer}
    (calls : ∀ event ∈ opening, MadeByConnecting event.call) :
    storedBytes (opening ++ ⟨.httpClientReq sock req timeout, answer⟩ ::
      (delivering ++ [⟨.close sock, ()⟩])) = storedBytes delivering := by
  rw [storedBytes_append, storedBytes_of_none (connecting_quiet calls).1,
    List.nil_append, ← List.singleton_append, storedBytes_append,
    storedBytes_append]
  exact List.append_nil _

theorem GetReqOutcome.rewrites {after : World}
    (outcome : GetReqOutcome sha256 ctx world trace after)
    (rewritten : Rewritten files path [] world) :
    Rewritten files path (storedBytes trace) after := by
  cases outcome with
  | unconnected calls failed =>
      rwa [storedBytes_of_none (connecting_quiet calls).1]
  | answered calls noFailure connected delivers =>
      rw [storedBytes_answered calls]
      exact deliverReports_rewrites rewritten _ _ _ delivers

/-- Complete writes store the body. -/
theorem GetReqOutcome.storedBytes_eq {after : World}
    (outcome : GetReqOutcome sha256 ctx world trace after)
    (full : ∀ event ∈ trace, ¬ WriteFails event) :
    storedBytes trace = deliveredBody trace := by
  cases outcome with
  | unconnected calls failed =>
      obtain ⟨noneStored, noReports⟩ := connecting_quiet calls
      rw [storedBytes_of_none noneStored, deliveredBody, noReports]
      rfl
  | @answered opening delivering sock req timeout answer _ _ calls noFailure
      connected delivers =>
      obtain ⟨byCallback, stores⟩ := deliverReports_ensures _ _ _ delivers
      have stored : delivering.filterMap Event.stored =
          fragments answer.reports :=
        stores.mp fun event member => full event (by simp [member])
      have reports : List.flatMap Event.reports
          (opening ++ ⟨.httpClientReq sock req timeout, answer⟩ ::
            (delivering ++ [⟨.close sock, ()⟩])) = answer.reports := by
        rw [List.flatMap_append, (connecting_quiet calls).2,
          List.nil_append, List.flatMap_cons, List.flatMap_append,
          callback_reports byCallback]
        exact List.append_nil _
      rw [storedBytes_answered calls, storedBytes, stored, deliveredBody,
        reports, fragments_flatten]

end Storing

section Sessions

variable {sha256 : List UInt8 → Digest} {before after : World}
variable {download : DownloadCommand} {downloads : List DownloadCommand} {trace : Trace}
variable {file fullPath : CString} {ret : Int}

/-- A line of the shell. -/
def PrintsLine : Call → Prop
  | .shellPrint _ | .shellError _ => True
  | _ => False

theorem printsLine_quiet (lines : ∀ event ∈ trace, PrintsLine event.call) :
    trace.filterMap Event.stored = [] ∧ trace.flatMap Event.reports = [] := by
  constructor
  · apply List.filterMap_eq_nil_iff.mpr
    rintro ⟨call, answer⟩ member
    have prints := lines _ member
    cases call <;> first | rfl | exact prints.elim
  · apply List.flatMap_eq_nil_iff.mpr
    rintro ⟨call, answer⟩ member
    have prints := lines _ member
    cases call <;> first | rfl | exact prints.elim

/-- Calls that are no `printk` print nothing. -/
theorem printed_of_none {allowed : Call → Prop}
    (silent : ∀ line, ¬ allowed (.printk line))
    (calls : ∀ event ∈ trace, allowed event.call) :
    trace.filterMap Event.printed = [] := by
  apply List.filterMap_eq_nil_iff.mpr
  rintro ⟨call, answer⟩ member
  cases call with
  | printk line => exact (silent line (calls _ member)).elim
  | _ => rfl

/-- The command prints lines around the download. -/
structure Around (sha256 : List UInt8 → Digest) (download : DownloadCommand)
    (before after : World) (inner : Trace) : Prop where
  lines : ∃ opening closing, download.trace = opening ++ (inner ++ closing) ∧
    (∀ event ∈ opening, PrintsLine event.call) ∧
    ∀ event ∈ closing, PrintsLine event.call
  outcome : DownloadOutcome sha256 (savedAt download.savePath) before inner
    download.ret after

theorem around_of_step (step : DownloadStep sha256 before download after) :
    ∃ inner, Around sha256 download before after inner := by
  rcases download with
    ⟨fuel, command, hostname, port, path, savePath, more, trace, ret⟩
  have ensures : Ensures (environment sha256)
      (cmdHttpDl fuel (command :: hostname :: port :: path :: savePath :: more))
      before fun trace ret after => ∃ opening inner closing,
        trace = opening ++ (inner ++ closing) ∧
        (∀ event ∈ opening, PrintsLine event.call) ∧
        (∀ event ∈ closing, PrintsLine event.call) ∧
        DownloadOutcome sha256 (savedAt savePath) before inner ret after := by
    unfold cmdHttpDl
    simp only [ensures_bind, ensures_request]
    rintro _ _ rfl _ _ rfl _ _ rfl _ _ rfl
    refine httpDlFile_ensures.mono ?_
    intro inner ret loaded outcome
    split
    case isTrue failed =>
      simp only [ensures_bind, ensures_request, ensures_pure]
      rintro _ _ rfl
      exact ⟨[_, _, _, _], inner, [_], rfl, by simp [PrintsLine],
        by simp [PrintsLine], outcome⟩
    case isFalse succeeded =>
      simp only [ensures_bind, ensures_request, ensures_pure]
      rintro _ _ rfl
      have zero : ret = 0 := by
        cases outcome with
        | refused _ negative => exact (succeeded negative).elim
        | opened => rfl
      rw [zero] at outcome
      exact ⟨[_, _, _, _], inner, [_], rfl, by simp [PrintsLine],
        by simp [PrintsLine], outcome⟩
  obtain ⟨opening, inner, closing, same, opens, closes, outcome⟩ :=
    ensures _ _ _ step
  exact ⟨inner, ⟨opening, closing, same, opens, closes⟩, outcome⟩

theorem Around.storedBytes_eq {inner : Trace}
    (around : Around sha256 download before after inner) :
    storedBytes download.trace = storedBytes inner := by
  obtain ⟨opening, closing, same, opens, closes⟩ := around.lines
  rw [same, storedBytes_append, storedBytes_append,
    storedBytes_of_none (printsLine_quiet opens).1,
    storedBytes_of_none (printsLine_quiet closes).1, List.nil_append,
    List.append_nil]

theorem Around.deliveredBody_eq {inner : Trace}
    (around : Around sha256 download before after inner) :
    deliveredBody download.trace = deliveredBody inner := by
  obtain ⟨opening, closing, same, opens, closes⟩ := around.lines
  have reports : download.trace.flatMap Event.reports =
      inner.flatMap Event.reports := by
    rw [same, List.flatMap_append, List.flatMap_append,
      (printsLine_quiet opens).2, (printsLine_quiet closes).2,
      List.nil_append, List.append_nil]
  rw [deliveredBody, reports, deliveredBody]

theorem storedBytes_surrounded {requesting hashing : Trace} {hash : Digest}
    {rc : Int} (byHash : ∀ event ∈ hashing, MadeByHash event.call) :
    storedBytes ([⟨.fsOpen fullPath saveFlags, rc⟩] ++
        (requesting ++ closing fullPath hashing hash)) =
      storedBytes requesting := by
  rw [storedBytes_append, storedBytes_append,
    storedBytes_of_none (outside_quiet (opening_outside fullPath rc)).1,
    storedBytes_of_none (outside_quiet (closing_outside fullPath hash byHash)).1,
    List.nil_append, List.append_nil]

theorem DownloadOutcome.storedBytes_eq
    (outcome : DownloadOutcome sha256 fullPath before trace ret after)
    (full : ∀ event ∈ trace, ¬ WriteFails event) :
    storedBytes trace = deliveredBody trace := by
  cases outcome with
  | refused _ negative => rfl
  | @opened openRet requesting hashing loaded _ content hash rc openOk request
      found byHash result buffer kept =>
      rw [storedBytes_surrounded byHash,
        deliveredBody_surrounded (opening_outside fullPath openRet)
          (closing_outside fullPath hash byHash)]
      exact request.storedBytes_eq fun event member => full event (by simp [member])

/-- What a download does to all the files. -/
theorem DownloadOutcome.contentAt_eq
    (outcome : DownloadOutcome sha256 fullPath before trace ret after) :
    after.contentAt file =
      if fullPath = file then
        overwrite (before.contentAt file) 0 (storedBytes trace)
      else before.contentAt file := by
  cases outcome with
  | refused _ negative =>
      have silent : storedBytes
          [(⟨.fsOpen fullPath saveFlags, ret⟩ : Event Call.Answer)] = [] := rfl
      rw [silent, overwrite_zero, List.nil_append, List.length_nil,
        List.drop_zero, ite_self]
  | @opened openRet requesting hashing loaded _ content hash rc openOk request
      found byHash result buffer kept =>
      have opened : Rewritten before.files fullPath []
          (before.openFile fullPath saveFlags) := by
        constructor
        · rfl
        · simp [World.openFile, saveFlags, overwrite_zero]
      have files := (request.rewrites opened).files
      rw [storedBytes_surrounded byHash, World.contentAt, kept, files]
      split
      case isTrue same =>
        rw [same, Function.update_self]
        rfl
      case isFalse apart =>
        rw [Function.update_of_ne (Ne.symm apart)]
        rfl

theorem printed_surrounded {requesting hashing : Trace} {hash : Digest} {rc : Int}
    (byRequest : ∀ event ∈ requesting, MadeByRequest event.call)
    (byHash : ∀ event ∈ hashing, MadeByHash event.call) :
    List.filterMap Event.printed ([⟨.fsOpen fullPath saveFlags, rc⟩] ++
        (requesting ++ closing fullPath hashing hash)) =
      [sha256Line hash fullPath] := by
  have requestSilent := printed_of_none (fun _ made => made.elim) byRequest
  have hashSilent := printed_of_none (fun _ made => made.elim) byHash
  have openSilent : [(⟨.fsOpen fullPath saveFlags, rc⟩ :
      Event Call.Answer)].filterMap Event.printed = [] := rfl
  have closeSilent : Event.printed ⟨.fsClose, ()⟩ = none := rfl
  rw [closing, List.filterMap_append, List.filterMap_append, openSilent,
    requestSilent, List.filterMap_cons_none closeSilent, List.filterMap_append,
    hashSilent]
  rfl

/-- If no call of the checksum fails, one line is printed, with the checksum of
the file as it is left. -/
theorem Around.printed_eq {inner : Trace}
    (around : Around sha256 download before after inner)
    (succeeds : download.ret = 0)
    (noFailure : ∀ event ∈ download.trace, ¬ HashFails event) :
    download.trace.filterMap Event.printed =
      [sha256Line (sha256 (after.contentAt (savedAt download.savePath)))
        (savedAt download.savePath)] := by
  obtain ⟨front, back, same, opens, closes⟩ := around.lines
  have inside : download.trace.filterMap Event.printed =
      inner.filterMap Event.printed := by
    rw [same, List.filterMap_append, List.filterMap_append,
      printed_of_none (fun _ prints => prints.elim) opens,
      printed_of_none (fun _ prints => prints.elim) closes, List.nil_append,
      List.append_nil]
  rw [inside]
  replace noFailure : ∀ event ∈ inner, ¬ HashFails event :=
    fun event member => noFailure event (by simp [same, member])
  have outcome := around.outcome
  rw [succeeds] at outcome
  generalize savedAt download.savePath = fullPath at outcome ⊢
  cases outcome with
  | refused _ negative => exact absurd negative (Int.lt_irrefl 0)
  | @opened openRet requesting hashing loaded _ content hash rc openOk request
      found byHash result buffer kept =>
      have stays : after.contentAt fullPath = content := by
        rw [World.contentAt, kept, found]
        rfl
      have isHash : hash = sha256 content := by
        rcases result with ⟨-, event, member, fails⟩ | ⟨-, -, isHash⟩
        · exact (noFailure event (by simp [closing, member]) fails).elim
        · exact isHash
      rw [printed_surrounded request.calls byHash, isHash, stays]

/-- A file after any number of downloads. -/
theorem contentAt_of_session
    (session : Path (DownloadStep sha256) before downloads after)
    (file : CString) :
    after.contentAt file = layered (before.contentAt file)
      (downloads.filterMap (DownloadCommand.layerAt file)) := by
  induction session with
  | nil => rfl
  | @cons first middle last download downloads head tail ih =>
      obtain ⟨inner, around⟩ := around_of_step head
      rw [ih, around.outcome.contentAt_eq, ← around.storedBytes_eq,
        List.filterMap_cons]
      unfold DownloadCommand.layerAt
      split
      · rfl
      · rfl

end Sessions

end HttpDl

end SzpiSta
