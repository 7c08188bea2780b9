import SzpiSta.Overwriting
import SzpiSta.RpcReference
import SzpiSta.WscliRecv

/-!
# Messages that arrive in pieces

`wscli_recv` returns after the first `recv` that brings anything, and `poll_loop`
hands what it brought to `rpc_execute`.  So every piece of a message is executed
as a request of its own, and a sequence of messages is executed as sent exactly
if each of them arrives in one `recv`.
-/

namespace SzpiSta

namespace RpcFraming

open CStrings JsonLibrary RpcRoute WscliRecv
open ExternalCalls ExternalCalls.Program Overwriting TransitionPaths
open EventLoop (EvtSystem PollAnswer)

/-- `MAX_RECV_BUF_LEN`. -/
def maxRecvBufLen : Nat := 1024

/-- What one `recv` brings, and the failures of `recv` before it does. -/
structure Piece where
  failures : List TryAgain
  text : CText
  nonempty : text.bytes ≠ []

/-- A message, in the pieces it arrives in. -/
structure Message where
  pieces : List Piece
  nonempty : pieces ≠ []
  fits : (pieces.flatMap fun piece => piece.text.bytes).length ≤ maxRecvBufLen

/-- `errno`, what `recv` will bring, and `recv_buf`. -/
structure Inbox where
  errno : Int
  arriving : List Piece
  recvBuf : List UInt8

/-- A `recv`: its value and the connection after it.  Without anything to arrive
it waits. -/
def Inbox.recv (inbox : Inbox) (offset len : Int) : Option (Int × Inbox) :=
  match inbox.arriving with
  | [] => none
  | piece :: rest =>
      match piece.failures with
      | failure :: failures =>
          some (-1, { inbox with
            errno := failure.errno
            arriving := { piece with failures } :: rest })
      | [] =>
          if piece.text.bytes.length ≤ len then
            some (piece.text.bytes.length, { inbox with
              arriving := rest
              recvBuf := overwrite inbox.recvBuf offset.toNat piece.text.bytes })
          else none

/-- The calls of `wscli_recv`. -/
def arrivals : Environment Call.Answer Inbox where
  answers before call answer after :=
    match call with
    | .recv _ offset len => before.recv offset len = some (answer, after)
    | .errno => answer = before.errno ∧ after = before
    | .kSleep _ => after = before
    | .logClosed _ _ => after = before

/-- The main loop, the connection, and what the calls of `rpc_execute` did.  A
NULL that a call hands to a string function is recorded with it. -/
structure RpcSystem (Thread : Type) where
  evt : EvtSystem Thread
  inbox : Inbox
  executed : List Outcome

section System

variable {Thread : Type} [DecidableEq Thread]

/-- A step of the main loop or of another thread.  After `wscli_recv` the main
loop executes what stands in the buffer, and the parser writes into the buffer
what it likes. -/
inductive Step (library : Library) :
    RpcSystem Thread → EventLoop.Label Thread → RpcSystem Thread → Prop where
  | other {s : RpcSystem Thread} {label : EventLoop.Label Thread}
      {evt : EvtSystem Thread} (taken : EventLoop.Step true s.evt label evt)
      (notRecv : ∀ rLen, label ≠ .wscliRecv rLen) :
      Step library s label { s with evt }
  | failed {s : RpcSystem Thread} {fuel : Nat} {rLen : Int} {inbox : Inbox}
      {trace : List (Event Call.Answer)} {evt : EvtSystem Thread}
      (runs : Runs arrivals (wscliRecv fuel s.evt.gFds.socket maxRecvBufLen)
        s.inbox trace rLen inbox)
      (taken : EventLoop.Step true s.evt (.wscliRecv rLen) evt)
      (negative : rLen < 0) :
      Step library s (.wscliRecv rLen) { s with evt, inbox }
  | executed {s : RpcSystem Thread} {fuel : Nat} {rLen : Int} {inbox : Inbox}
      {trace : List (Event Call.Answer)} {evt : EvtSystem Thread}
      {msg : CText} {recvBuf : List UInt8}
      (runs : Runs arrivals (wscliRecv fuel s.evt.gFds.socket maxRecvBufLen)
        s.inbox trace rLen inbox)
      (taken : EventLoop.Step true s.evt (.wscliRecv rLen) evt)
      (arrived : 0 ≤ rLen)
      (handed : msg.bytes = inbox.recvBuf.take rLen.toNat) :
      Step library s (.wscliRecv rLen)
        { evt
          inbox := { inbox with recvBuf }
          executed := s.executed ++ [rpcExecute library msg] }

/-- All has been received on some run, and the calls of `rpc_execute` did
this. -/
def Executes (library : Library) (s : RpcSystem Thread)
    (outcomes : List Outcome) : Prop :=
  ∃ labels last, Path (Step library) s labels last ∧
    last.inbox.arriving = [] ∧ last.executed = outcomes

end System

section Receive

variable {sock : Int} {fuel : Nat} {inbox : Inbox}

def Inbox.texts (inbox : Inbox) : List CText := inbox.arriving.map Piece.text

/-- The first piece was received, and stands in the buffer. -/
def Received (before : Inbox) (rLen : Int) (after : Inbox) : Prop :=
  ∃ text, before.texts = text :: after.texts ∧
    rLen = text.bytes.length ∧
    after.recvBuf.take text.bytes.length = text.bytes

theorem recv_cases {offset len ret : Int} {after : Inbox}
    (answered : inbox.recv offset len = some (ret, after)) :
    (∃ failure : TryAgain, ret = -1 ∧ after.errno = failure.errno ∧
        after.texts = inbox.texts) ∨
      ∃ text : CText, text.bytes ≠ [] ∧ ret = text.bytes.length ∧
        inbox.texts = text :: after.texts ∧
        after.recvBuf = overwrite inbox.recvBuf offset.toNat text.bytes := by
  rcases inbox with ⟨errno, arriving, recvBuf⟩
  cases arriving with
  | nil => cases answered
  | cons piece rest =>
      rcases piece with ⟨failures, text, nonempty⟩
      cases failures with
      | cons failure failures =>
          cases answered
          exact .inl ⟨failure, rfl, rfl, rfl⟩
      | nil =>
          obtain ⟨-, same⟩ := Option.ite_none_right_eq_some.mp answered
          cases same
          exact .inr ⟨text, nonempty, rfl, rfl, rfl⟩

theorem arrivals_readsErrno : ReadsErrno arrivals Inbox.errno :=
  ⟨fun _ _ _ => Iff.rfl, fun _ _ _ _ => Iff.rfl, fun _ _ _ _ _ => Iff.rfl⟩

/-- Every turn uses a failure up or leaves with the first piece. -/
theorem ensures_recvTurn_arrivals :
    Ensures arrivals (recvTurn sock maxRecvBufLen 0) inbox
      fun _ step after =>
        (step = .again 0 ∧ after.texts = inbox.texts) ∨
          ∃ rLen, step = .leave rLen ∧ Received inbox rLen after := by
  refine arrivals_readsErrno.ensures_recvTurn.mono ?_
  rintro - step after ⟨ret, answered, rfl⟩
  rcases recv_cases answered with
    ⟨failure, rfl, errno, same⟩ | ⟨text, nonempty, rfl, first, buffer⟩
  · have negative : (-1 : Int) ≤ 0 := by decide
    refine .inl ⟨?_, same⟩
    rw [turnStep, if_pos negative, errno, if_pos failure.retries]
  · have positive : ¬ (text.bytes.length : Int) ≤ 0 := by
      have := List.length_pos_iff.mpr nonempty
      omega
    refine .inr ⟨_, if_neg positive, text, first, by omega, ?_⟩
    rw [buffer]
    exact take_overwrite_zero _ _

theorem ensures_wscliRecv :
    Ensures arrivals (wscliRecv fuel sock maxRecvBufLen) inbox
      fun _ rLen after => Received inbox rLen after := by
  refine ensures_loop
    (fun readPos _ world => readPos = 0 ∧ world.texts = inbox.texts) ?_ fuel
    ⟨rfl, rfl⟩
  rintro _ - world ⟨rfl, same⟩
  refine ensures_recvTurn_arrivals.mono ?_
  rintro - step after (⟨rfl, still⟩ | ⟨rLen, rfl, text, first, received⟩)
  · exact ⟨rfl, still.trans same⟩
  · exact ⟨text, same.symm.trans first, received⟩

/-- However often `recv` fails before it, the next piece is received. -/
theorem exists_wscliRecv (sock : Int) {errno : Int} {failures : List TryAgain} {text : CText}
    {nonempty : text.bytes ≠ []} {rest : List Piece} {recvBuf : List UInt8}
    (fits : text.bytes.length ≤ maxRecvBufLen) :
    ∃ fuel trace after, Runs arrivals (wscliRecv fuel sock maxRecvBufLen)
        ⟨errno, ⟨failures, text, nonempty⟩ :: rest, recvBuf⟩ trace
        text.bytes.length after ∧ after.arriving = rest := by
  induction failures generalizing errno with
  | nil =>
      have positive : (0 : Int) < text.bytes.length := by
        have := List.length_pos_iff.mpr nonempty
        omega
      have room : (text.bytes.length : Int) ≤ maxRecvBufLen - 0 := by omega
      have answered : arrivals.answers
          ⟨errno, ⟨[], text, nonempty⟩ :: rest, recvBuf⟩
          (.recv sock 0 (maxRecvBufLen - 0)) text.bytes.length
          ⟨errno, rest, overwrite recvBuf 0 text.bytes⟩ := if_pos room
      obtain ⟨trace, turn⟩ := arrivals_readsErrno.runs_recvTurn answered
      rw [turnStep, if_neg (Int.not_le.mpr positive), Int.zero_add] at turn
      exact ⟨1, _, _, .loop_leave turn, rfl⟩
  | cons failure failures ih =>
      obtain ⟨fuel, restTrace, after, runs, arriving⟩ := ih
      have answered : arrivals.answers
          ⟨errno, ⟨failure :: failures, text, nonempty⟩ :: rest, recvBuf⟩
          (.recv sock 0 (maxRecvBufLen - 0)) (-1)
          ⟨failure.errno, ⟨failures, text, nonempty⟩ :: rest, recvBuf⟩ := rfl
      have negative : (-1 : Int) ≤ 0 := by decide
      obtain ⟨trace, turn⟩ := arrivals_readsErrno.runs_recvTurn answered
      rw [turnStep, if_pos negative, if_pos failure.retries] at turn
      exact ⟨fuel + 1, _, after, .loop_again turn runs, arriving⟩

end Receive

section Runs

variable {Thread : Type} [DecidableEq Thread] {library : Library}
variable {s s' : RpcSystem Thread} {label : EventLoop.Label Thread}

/-- What has been executed, and what the pieces still to come will make of
it. -/
def RpcSystem.allOutcomes (library : Library) (s : RpcSystem Thread) :
    List Outcome :=
  s.executed ++ s.inbox.texts.map (rpcExecute library)

/-- A call of `wscli_recv` executes one piece, or it failed. -/
theorem allOutcomes_step (taken : Step library s label s') :
    s'.allOutcomes library = s.allOutcomes library := by
  cases taken with
  | other => rfl
  | failed runs taken negative =>
      obtain ⟨text, -, received, -⟩ := ensures_wscliRecv _ _ _ runs
      omega
  | executed runs taken arrived handed =>
      obtain ⟨text, first, rfl, stands⟩ := ensures_wscliRecv _ _ _ runs
      rename_i inbox _ _ msg recvBuf
      have whole : msg = text := by
        rw [Int.toNat_natCast, stands] at handed
        exact (CText.mk.injEq ..).mpr handed
      subst whole
      have later : Inbox.texts { inbox with recvBuf } = inbox.texts := rfl
      simp only [RpcSystem.allOutcomes, first, later, List.map_cons,
        List.append_assoc, List.singleton_append]

theorem allOutcomes_path {labels : List (EventLoop.Label Thread)}
    (path : Path (Step library) s labels s') :
    s'.allOutcomes library = s.allOutcomes library :=
  path.invariant (fun state => state.allOutcomes library =
      s.allOutcomes library)
    (fun _ _ _ same taken => (allOutcomes_step taken).trans same) rfl

/-- Steps of the main loop and of other threads that receive nothing. -/
abbrev OffSocket :
    EvtSystem Thread → EventLoop.Label Thread → EvtSystem Thread → Prop :=
  Restrict (EventLoop.Step true) fun _ label => ∀ rLen, label ≠ .wscliRecv rLen

theorem path_of_offSocket {evt evt' : EvtSystem Thread}
    {labels : List (EventLoop.Label Thread)}
    (path : Path OffSocket evt labels evt') (same : s.evt = evt) :
    Path (Step library) s labels { s with evt := evt' } := by
  induction path generalizing s with
  | nil =>
      subst same
      exact .nil _
  | cons head _ ih =>
      subst same
      exact .cons (.other head.1 head.2) (ih rfl)

/-- The main loop handles the queued events and polls again. -/
theorem exists_drained {evt : EvtSystem Thread} (draining : evt.main = .draining) :
    ∃ labels evt', Path OffSocket evt labels evt' ∧ evt'.main = .polling ∧
      evt'.gFds = evt.gFds := by
  induction queued : evt.evtList generalizing evt with
  | nil =>
      have get : EventLoop.Step true evt (.slistGet none)
          { evt with evtList := evt.evtList.tail, main := .returned 0 } :=
        if_pos ⟨draining, by rw [queued]; rfl⟩
      have sleep : EventLoop.Step true
          { evt with evtList := evt.evtList.tail, main := .returned 0 }
          .sleepEnds
          { evt with evtList := evt.evtList.tail, main := .polling } := rfl
      exact ⟨[.slistGet none, .sleepEnds], _,
        .cons ⟨get, nofun⟩ (.cons ⟨sleep, nofun⟩ (.nil _)), rfl, rfl⟩
  | cons msg msgs ih =>
      have get : EventLoop.Step true evt (.slistGet (some msg))
          { evt with evtList := evt.evtList.tail, main := .handling msg } :=
        if_pos ⟨draining, by rw [queued]; rfl⟩
      have dispatch : EventLoop.Step true
          { evt with evtList := evt.evtList.tail, main := .handling msg }
          (.dispatch msg (EventLoop.evtAction true evt.gFds msg))
          { evt with evtList := evt.evtList.tail, main := .draining } :=
        if_pos ⟨rfl, rfl⟩
      have left : ({ evt with evtList := evt.evtList.tail, main := .draining } :
          EvtSystem Thread).evtList = msgs := by
        rw [queued]
        rfl
      obtain ⟨labels, evt', rest, polling, same⟩ := ih rfl left
      exact ⟨_, evt', .cons ⟨get, nofun⟩ (.cons ⟨dispatch, nofun⟩ rest),
        polling, same⟩

/-- The main loop looks at the eventfd, and polls again in the end. -/
theorem exists_polling (evt : EvtSystem Thread) {eventRevents : UInt16}
    (main : evt.main = EventLoop.checkEventfd evt.gFds eventRevents)
    (reported : eventRevents ≠ 0 → 0 < evt.counter) :
    ∃ labels evt', Path OffSocket evt labels evt' ∧ evt'.main = .polling ∧
      evt'.gFds = evt.gFds := by
  unfold EventLoop.checkEventfd at main
  rw [if_pos evt.gFds.eventFd_valid] at main
  by_cases ready : eventRevents ≠ 0
  · rw [if_pos ready] at main
    have read : EventLoop.Step true evt .eventfdRead
        { evt with counter := 0, main := .draining } :=
      if_pos ⟨main, reported ready⟩
    have draining : ({ evt with counter := 0, main := .draining } :
        EvtSystem Thread).main = .draining := rfl
    obtain ⟨labels, evt', rest, polling, same⟩ := exists_drained draining
    exact ⟨_, evt', .cons ⟨read, nofun⟩ rest, polling, same⟩
  · rw [if_neg ready] at main
    have sleep : EventLoop.Step true evt .sleepEnds
        { evt with main := .polling } := by
      rcases evt with ⟨evtList, counter, gFds, senders, pc⟩
      obtain rfl : pc = .returned 0 := main
      rfl
    exact ⟨[.sleepEnds], _, .cons ⟨sleep, nofun⟩ (.nil _), rfl, rfl⟩

/-- What `poll` answers when something arrives. -/
def arrivedAnswer (evt : EvtSystem Thread) : PollAnswer :=
  let eventRevents := if 0 < evt.counter then EventLoop.pollIn else 0
  ⟨PollAnswer.ready ⟨0, eventRevents, EventLoop.pollIn⟩ evt.gFds, eventRevents,
    EventLoop.pollIn⟩

theorem poll_arrived {evt : EvtSystem Thread} (polling : evt.main = .polling)
    (connected : 0 ≤ evt.gFds.socket) :
    EventLoop.Step true evt (.pollReturns (arrivedAnswer evt))
      { evt with main := .receiving (arrivedAnswer evt).eventRevents } := by
  have nval : ¬ EventLoop.pollIn &&& EventLoop.pollNval ≠ 0 := by decide
  have err : ¬ EventLoop.pollIn &&& EventLoop.pollErr ≠ 0 := by decide
  have arrived : EventLoop.pollIn &&& EventLoop.pollIn ≠ 0 := by decide
  have revents : (arrivedAnswer evt).socketRevents = EventLoop.pollIn := rfl
  have positive : 0 < (arrivedAnswer evt).ret := by
    simp only [arrivedAnswer, PollAnswer.ready]
    rw [if_pos (⟨connected, by decide⟩ : 0 ≤ evt.gFds.socket ∧ _)]
    split <;> omega
  have receiving : EventLoop.afterPoll true evt.gFds (arrivedAnswer evt) =
      .receiving (arrivedAnswer evt).eventRevents := by
    unfold EventLoop.afterPoll
    rw [if_neg (by omega), if_neg (by omega), if_pos ⟨rfl, connected⟩, revents,
      if_neg nval, if_neg err, if_pos arrived]
  rw [← receiving]
  exact if_pos ⟨polling, .inr ⟨rfl, rfl⟩⟩

theorem receive_arrived {evt : EvtSystem Thread} {eventRevents : UInt16}
    {rLen : Int} (main : evt.main = .receiving eventRevents)
    (arrived : 0 ≤ rLen) :
    EventLoop.Step true evt (.wscliRecv rLen)
      { evt with main := EventLoop.checkEventfd evt.gFds eventRevents } := by
  rcases evt with ⟨evtList, counter, gFds, senders, pc⟩
  obtain rfl : pc = .receiving eventRevents := main
  exact if_neg (Int.not_lt.mpr arrived)

/-- The next piece is received. -/
theorem exists_turn {piece : Piece} {rest : List Piece}
    (polling : s.evt.main = .polling) (connected : 0 ≤ s.evt.gFds.socket)
    (arriving : s.inbox.arriving = piece :: rest)
    (fits : piece.text.bytes.length ≤ maxRecvBufLen) :
    ∃ labels s', Path (Step library) s labels s' ∧ s'.evt.main = .polling ∧
      s'.evt.gFds = s.evt.gFds ∧ s'.inbox.arriving = rest := by
  rcases s with ⟨evt, ⟨errno, _, recvBuf⟩, executed⟩
  rcases piece with ⟨failures, text, nonempty⟩
  subst arriving
  -- The poll, the receipt, and the rest of the turn.
  have poll := poll_arrived polling connected
  obtain ⟨fuel, trace, after, runs, arriving⟩ :=
    exists_wscliRecv evt.gFds.socket fits
  have receive : EventLoop.Step true
      { evt with main := .receiving (arrivedAnswer evt).eventRevents }
      (.wscliRecv text.bytes.length)
      { evt with
        main := EventLoop.checkEventfd evt.gFds
          (arrivedAnswer evt).eventRevents } :=
    receive_arrived rfl (by omega)
  have reported : (arrivedAnswer evt).eventRevents ≠ 0 → 0 < evt.counter := by
    intro ready
    by_contra quiet
    exact ready (if_neg quiet)
  obtain ⟨labels, evt', last, again, same⟩ := exists_polling
    { evt with
      main := EventLoop.checkEventfd evt.gFds (arrivedAnswer evt).eventRevents }
    rfl reported
  obtain ⟨text', first, length, stands⟩ := ensures_wscliRecv _ _ _ runs
  have handed : text'.bytes =
      after.recvBuf.take (text.bytes.length : Int).toNat := by
    rw [length, Int.toNat_natCast, stands]
  have executes : Step library
      { evt := { evt with
          main := .receiving (arrivedAnswer evt).eventRevents }
        inbox := ⟨errno, ⟨failures, text, nonempty⟩ :: rest, recvBuf⟩
        executed }
      (.wscliRecv text.bytes.length)
      { evt := { evt with
          main := EventLoop.checkEventfd evt.gFds
            (arrivedAnswer evt).eventRevents }
        inbox := { after with recvBuf }
        executed := executed ++ [rpcExecute library text'] } :=
    .executed runs receive (by omega) handed
  exact ⟨_, _, .cons (.other poll nofun)
    (.cons executes (path_of_offSocket last rfl)), again, same, arriving⟩

/-- Everything is received in the end. -/
theorem exists_received {arriving : List Piece}
    (polling : s.evt.main = .polling) (connected : 0 ≤ s.evt.gFds.socket)
    (waits : s.inbox.arriving = arriving)
    (fit : ∀ piece ∈ arriving, piece.text.bytes.length ≤ maxRecvBufLen) :
    ∃ labels last, Path (Step library) s labels last ∧
      last.inbox.arriving = [] := by
  induction arriving generalizing s with
  | nil => exact ⟨[], s, .nil _, waits⟩
  | cons piece rest ih =>
      obtain ⟨labels, s', turn, again, same, left⟩ := exists_turn polling
        connected waits (fit piece List.mem_cons_self)
      obtain ⟨more, last, later, done⟩ := ih again (same ▸ connected) left
        fun piece member => fit piece (List.mem_cons_of_mem _ member)
      exact ⟨_, last, turn.append later, done⟩

end Runs

section Messages

def Message.text (message : Message) : CText where
  bytes := message.pieces.flatMap fun piece => piece.text.bytes
  noNul := by
    intro member
    obtain ⟨piece, -, inPiece⟩ := List.mem_flatMap.mp member
    exact piece.text.noNul inPiece

theorem Message.text_nonempty (message : Message) :
    message.text.bytes ≠ [] := by
  obtain ⟨piece, member⟩ := List.exists_mem_of_ne_nil _ message.nonempty
  obtain ⟨byte, inPiece⟩ := List.exists_mem_of_ne_nil _ piece.nonempty
  exact List.ne_nil_of_mem (List.mem_flatMap.mpr ⟨piece, member, inPiece⟩)

/-- The same message in one piece. -/
def Message.whole (message : Message) : Message where
  pieces := [⟨[], message.text, message.text_nonempty⟩]
  nonempty := List.cons_ne_nil _ _
  fits := by
    simpa [Message.text] using message.fits

theorem Message.whole_text (message : Message) :
    message.whole.text = message.text := by
  rw [CText.mk.injEq]
  simp [Message.whole, Message.text]

theorem Message.piece_fits {message : Message} {piece : Piece}
    (member : piece ∈ message.pieces) :
    piece.text.bytes.length ≤ maxRecvBufLen := by
  refine Nat.le_trans ?_ message.fits
  obtain ⟨before, after, split⟩ := List.append_of_mem member
  rw [split, List.flatMap_append, List.flatMap_cons]
  simp only [List.length_append]
  omega

/-- The program polls, connected. -/
structure Listening (Thread : Type) where
  evt : EvtSystem Thread
  errno : Int
  recvBuf : List UInt8
  polling : evt.main = .polling
  connected : 0 ≤ evt.gFds.socket

variable {Thread : Type} [DecidableEq Thread]

/-- The messages are about to arrive. -/
def Listening.receiving (start : Listening Thread) (messages : List Message) :
    RpcSystem Thread where
  evt := start.evt
  inbox := ⟨start.errno, messages.flatMap Message.pieces, start.recvBuf⟩
  executed := []

/-- The calls of `rpc_execute` are the ones for the same messages that arrive in
one `recv` each. -/
def SameCalls (library : Library) (start : Listening Thread)
    (messages : List Message) : Prop :=
  ∀ outcomes, Executes library (start.receiving messages) outcomes ↔
    Executes library (start.receiving (messages.map Message.whole)) outcomes

variable {library : Library} {start : Listening Thread}
variable {messages : List Message}

/-- Every piece is executed as a request of its own, in order. -/
theorem executes_iff {outcomes : List Outcome} :
    Executes library (start.receiving messages) outcomes ↔
      outcomes = (messages.flatMap Message.pieces).map fun piece =>
        rpcExecute library piece.text := by
  have all : (start.receiving messages).allOutcomes library =
      (messages.flatMap Message.pieces).map fun piece =>
        rpcExecute library piece.text := by
    simp [RpcSystem.allOutcomes, Listening.receiving, Inbox.texts]
  have whatRan {labels : List (EventLoop.Label Thread)}
      {last : RpcSystem Thread}
      (path : Path (Step library) (start.receiving messages) labels last)
      (done : last.inbox.arriving = []) :
      last.executed = (messages.flatMap Message.pieces).map fun piece =>
        rpcExecute library piece.text := by
    rw [← all, ← allOutcomes_path path]
    simp [RpcSystem.allOutcomes, Inbox.texts, done]
  constructor
  · rintro ⟨labels, last, path, done, rfl⟩
    exact whatRan path done
  · rintro rfl
    have fit : ∀ piece ∈ messages.flatMap Message.pieces,
        piece.text.bytes.length ≤ maxRecvBufLen := by
      intro piece member
      obtain ⟨message, -, inMessage⟩ := List.mem_flatMap.mp member
      exact Message.piece_fits inMessage
    have polling : (start.receiving messages).evt.main = .polling :=
      start.polling
    obtain ⟨labels, last, path, done⟩ :=
      exists_received polling start.connected rfl fit
    exact ⟨labels, last, path, done, whatRan path done⟩

theorem length_le_pieces (messages : List Message) :
    messages.length ≤ (messages.flatMap Message.pieces).length := by
  induction messages with
  | nil => exact Nat.le_refl _
  | cons message messages ih =>
      have some := List.length_pos_iff.mpr message.nonempty
      rw [List.flatMap_cons, List.length_append, List.length_cons]
      omega

theorem pieces_length_eq_iff (messages : List Message) :
    (messages.flatMap Message.pieces).length = messages.length ↔
      ∀ message ∈ messages, message.pieces.length = 1 := by
  induction messages with
  | nil => simp
  | cons message messages ih =>
      have some := List.length_pos_iff.mpr message.nonempty
      have rest := length_le_pieces messages
      rw [List.flatMap_cons, List.length_append, List.length_cons,
        List.forall_mem_cons]
      constructor
      · intro same
        exact ⟨by omega, ih.mp (by omega)⟩
      · rintro ⟨one, ones⟩
        have same := ih.mpr ones
        omega

/-- A message in one piece is executed whole. -/
theorem pieces_of_unsplit
    (unsplit : ∀ message ∈ messages, message.pieces.length = 1) :
    (messages.flatMap Message.pieces).map Piece.text =
      messages.map Message.text := by
  induction messages with
  | nil => rfl
  | cons message messages ih =>
      obtain ⟨piece, one⟩ :=
        List.length_eq_one_iff.mp (unsplit message List.mem_cons_self)
      have same : message.text = piece.text := by
        rw [CText.mk.injEq]
        simp [Message.text, one]
      rw [List.flatMap_cons, List.map_append, List.map_cons, one, same,
        ih fun other member => unsplit other (List.mem_cons_of_mem _ member)]
      rfl

/-- Messages that arrive in one `recv` each are executed once each, in order. -/
theorem executes_whole_iff {outcomes : List Outcome} :
    Executes library (start.receiving (messages.map Message.whole)) outcomes ↔
      outcomes = messages.map fun message => rpcExecute library message.text := by
  have pieces : ((messages.map Message.whole).flatMap Message.pieces).map
      Piece.text = messages.map Message.text := by
    have texts : (messages.map Message.whole).map Message.text =
        messages.map Message.text := by
      rw [List.map_map]
      exact List.map_congr_left fun message _ => message.whole_text
    rw [pieces_of_unsplit, texts]
    intro message member
    obtain ⟨split, -, rfl⟩ := List.mem_map.mp member
    rfl
  have same := congrArg (List.map (rpcExecute library)) pieces
  simp only [List.map_map, Function.comp_def] at same
  rw [executes_iff, same]

end Messages

/-- For every sequence of messages, however they are split: `rpc_execute` is
called as when each of them arrives in one `recv` exactly if each of them
does. -/
theorem split_messages_executed_iff {Thread : Type} [DecidableEq Thread]
    (library : Library) (start : Listening Thread) (messages : List Message) :
    SameCalls library start messages ↔
      ∀ message ∈ messages, message.pieces.length = 1 := by
  constructor
  · intro same
    have executed := executes_whole_iff.mp
      ((same _).mp (executes_iff.mpr rfl))
    have lengths := congrArg List.length executed
    simp only [List.length_map] at lengths
    exact (pieces_length_eq_iff messages).mp lengths
  · intro unsplit outcomes
    have same := congrArg (List.map (rpcExecute library))
      (pieces_of_unsplit unsplit)
    simp only [List.map_map, Function.comp_def] at same
    rw [executes_whole_iff, executes_iff, same]

/-- The request to wake up, cut after ten bytes. -/
def cutMessage : Message where
  pieces :=
    [⟨[], ⟨wakeupMessage.bytes.take 10, by decide⟩, by decide⟩,
      ⟨[], ⟨wakeupMessage.bytes.drop 10, by decide⟩, by decide⟩]
  nonempty := List.cons_ne_nil _ _
  fits := by decide

/-- The main loop right after the connection is made. -/
def connectedLoop : Listening Unit where
  evt := ⟨[], 0, ⟨6, 7, by decide⟩, fun _ => .idle, .polling⟩
  errno := 0
  recvBuf := List.replicate maxRecvBufLen 0
  polling := rfl
  connected := by decide

/-- The request cut in two starts no advertising, which it does in one piece. -/
theorem cut_message_starts_nothing : ∃ cut whole,
    Executes plainLibrary (connectedLoop.receiving [cutMessage]) cut ∧
      Executes plainLibrary (connectedLoop.receiving [cutMessage.whole]) whole ∧
      cut.flatMap Outcome.advCalls = [] ∧
      whole.flatMap Outcome.advCalls = [.tryAdvertisingStart true 100] ∧
      ¬ SameCalls plainLibrary connectedLoop [cutMessage] := by
  have same : cutMessage.text = wakeupMessage := by decide
  refine ⟨_, _, executes_iff.mpr rfl, executes_iff.mpr rfl, by decide, ?_, ?_⟩
  · change (rpcExecute plainLibrary cutMessage.text).advCalls ++ [] = _
    rw [same]
    decide
  · intro sameCalls
    have executed := executes_whole_iff.mp
      ((sameCalls _).mp (executes_iff.mpr rfl))
    exact absurd (congrArg List.length executed) (by decide)

end RpcFraming

end SzpiSta
