import Mathlib.Logic.Function.Basic
import SzpiSta.FileCalls
import SzpiSta.TransitionPaths

/-!
# The main loop and its event list

The event list of main.c, the threads that call `evt_send`, and the main thread
that polls the eventfd and empties the list in `evt_handle`.  A step is one
thread's atomic access to what they share, as far as the next such access.  The
call in `main` before its loop counts as a thread of its own.
-/

namespace SzpiSta

namespace EventLoop

/-- `struct evt_msg`, its pointer taken as an address. -/
structure EvtMsg where
  type : UInt32
  len : UInt32
  data : UInt32
  deriving DecidableEq

def evtBase : UInt32 := 0x1000

def evtTimerOut : UInt32 := evtBase + 1

def evtWifiStaStart : UInt32 := evtTimerOut + 1

def evtWifiConnected : UInt32 := 0x2000

def evtBleStart : UInt32 := evtWifiConnected + 1

def pollIn : UInt16 := 0x1

def pollErr : UInt16 := 0x8

def pollNval : UInt16 := 0x20

/-- `EBADF`. -/
def eBadf : Int := 9

/-- `EAGAIN`. -/
def eAgain : Int := 11

/-- The largest value of an eventfd's counter; a write that would exceed it
waits. -/
def eventfdMax : Nat := UInt64.size - 2

/-- The descriptors of `g_fds` once `evt_init` has returned, which it never does
without a valid eventfd. -/
structure GFds where
  eventFd : Int
  socket : Int
  eventFd_valid : 0 ≤ eventFd

/-- Forget the socket. -/
def GFds.dropSocket (gFds : GFds) : GFds := { gFds with socket := -1 }

/-- What a message makes `evt_handle` call. -/
inductive EvtAction where
  | wscliPing (wsSock : Int)
  | staTryconnect
  | bleRcInit
  deriving DecidableEq

/-- Where a thread is in `evt_send`: not there, before the list is locked, or
after it is unlocked. -/
inductive SendPc where
  | idle
  | filled (msg : EvtMsg)
  | appended
  deriving DecidableEq

/-- Where the main thread is: in `poll`, in `wscli_recv`, before `eventfd_read`,
before `sys_slist_get`, with a message in hand, or asleep after `poll_loop`. -/
inductive MainPc where
  | polling
  | receiving (eventRevents : UInt16)
  | reading
  | draining
  | handling (msg : EvtMsg)
  | returned (ret : Int)
  deriving DecidableEq

structure EvtSystem (Thread : Type) where
  evtList : List EvtMsg
  /-- The counter of the eventfd. -/
  counter : Nat
  gFds : GFds
  senders : Thread → SendPc
  main : MainPc

/-- The value of `poll` and the `revents` of the eventfd, which is the first
entry of `p_fds`, and of the socket, which is the second if it is valid. -/
structure PollAnswer where
  ret : Int
  eventRevents : UInt16
  socketRevents : UInt16

/-- How many of the polled descriptors are ready. -/
def PollAnswer.ready (answer : PollAnswer) (gFds : GFds) : Int :=
  (if answer.eventRevents ≠ 0 then 1 else 0) +
    (if 0 ≤ gFds.socket ∧ answer.socketRevents ≠ 0 then 1 else 0)

/-- Unless it fails, `poll` reports the eventfd if and only if its counter is
positive, and returns the number of ready descriptors, zero at the timeout. -/
def PollAnswer.Allowed (answer : PollAnswer) (counter : Nat) (gFds : GFds) :
    Prop :=
  answer.ret < 0 ∨
    (answer.eventRevents = (if 0 < counter then pollIn else 0) ∧
      answer.ret = answer.ready gFds)

instance (answer : PollAnswer) (counter : Nat) (gFds : GFds) :
    Decidable (answer.Allowed counter gFds) :=
  inferInstanceAs (Decidable (_ ∨ _))

/-- The end of `poll_loop`, which looks at the eventfd. -/
def checkEventfd (gFds : GFds) (eventRevents : UInt16) : MainPc :=
  if 0 ≤ gFds.eventFd then
    if eventRevents ≠ 0 then .reading else .returned 0
  else .returned 0

/-- `poll_loop` from the return of `poll` on. -/
def afterPoll (staNetworkEn : Bool) (gFds : GFds) (answer : PollAnswer) :
    MainPc :=
  if answer.ret < 0 then .returned answer.ret
  else if answer.ret = 0 then .returned (-eAgain)
  else if staNetworkEn ∧ 0 ≤ gFds.socket then
    if answer.socketRevents &&& pollNval ≠ 0 then .returned (-eBadf)
    else if answer.socketRevents &&& pollErr ≠ 0 then .returned (-eIo)
    else if answer.socketRevents &&& pollIn ≠ 0 then
      .receiving answer.eventRevents
    else checkEventfd gFds answer.eventRevents
  else checkEventfd gFds answer.eventRevents

/-- The body of `evt_handle` for one message. -/
def evtAction (staNetworkEn : Bool) (gFds : GFds) (msg : EvtMsg) :
    Option EvtAction :=
  if msg.type = evtTimerOut then
    if staNetworkEn ∧ gFds.socket > 0 then some (.wscliPing gFds.socket)
    else none
  else if msg.type = evtWifiStaStart then
    if staNetworkEn then some .staTryconnect else none
  else if msg.type = evtWifiConnected ∨ msg.type = evtBleStart then
    some .bleRcInit
  else none

/-- `evt_handle` from a `sys_slist_get` on. -/
def afterGet : Option EvtMsg → MainPc
  | none => .returned 0
  | some msg => .handling msg

/-- The atomic steps. -/
inductive Label (Thread : Type) where
  | evtSend (thread : Thread) (type len data : UInt32)
  | append (thread : Thread) (msg : EvtMsg)
  | eventfdWrite (thread : Thread)
  | pollReturns (answer : PollAnswer)
  | wscliRecv (rLen : Int)
  | eventfdRead
  | slistGet (node : Option EvtMsg)
  | dispatch (msg : EvtMsg) (action : Option EvtAction)
  | sleepEnds

section Step

variable {Thread : Type}

/-- The write at the end of `evt_send`. -/
def EvtSystem.signal (s : EvtSystem Thread) : EvtSystem Thread :=
  if 0 ≤ s.gFds.eventFd then { s with counter := s.counter + 1 } else s

theorem EvtSystem.signal_eq (s : EvtSystem Thread) :
    s.signal = { s with counter := s.counter + 1 } :=
  if_pos s.gFds.eventFd_valid

variable [DecidableEq Thread]

/-- The system with one thread elsewhere in `evt_send`. -/
def EvtSystem.setSender (s : EvtSystem Thread) (thread : Thread) (pc : SendPc) :
    EvtSystem Thread :=
  { s with senders := Function.update s.senders thread pc }

@[simp]
theorem EvtSystem.setSender_evtList (s : EvtSystem Thread) (thread : Thread)
    (pc : SendPc) : (s.setSender thread pc).evtList = s.evtList := rfl

@[simp]
theorem EvtSystem.setSender_counter (s : EvtSystem Thread) (thread : Thread)
    (pc : SendPc) : (s.setSender thread pc).counter = s.counter := rfl

@[simp]
theorem EvtSystem.setSender_main (s : EvtSystem Thread) (thread : Thread)
    (pc : SendPc) : (s.setSender thread pc).main = s.main := rfl

theorem EvtSystem.setSender_self (s : EvtSystem Thread) (thread : Thread)
    (pc : SendPc) : (s.setSender thread pc).senders thread = pc := by
  simp [EvtSystem.setSender]

theorem EvtSystem.setSender_of_ne {s : EvtSystem Thread}
    {thread other : Thread} (apart : other ≠ thread) (pc : SendPc) :
    (s.setSender thread pc).senders other = s.senders other := by
  simp [EvtSystem.setSender, apart]

def step (staNetworkEn : Bool) :
    Label Thread → EvtSystem Thread → Option (EvtSystem Thread)
  | .evtSend thread type len data, s =>
      if s.senders thread = .idle then
        some (s.setSender thread (.filled ⟨type, len, data⟩))
      else none
  | .append thread msg, s =>
      if s.senders thread = .filled msg then
        let evtList := s.evtList ++ [msg]
        some ({ s with evtList }.setSender thread .appended)
      else none
  | .eventfdWrite thread, s =>
      if s.senders thread = .appended ∧
          (0 ≤ s.gFds.eventFd → s.counter < eventfdMax) then
        some (s.signal.setSender thread .idle)
      else none
  | .pollReturns answer, s =>
      if s.main = .polling ∧ answer.Allowed s.counter s.gFds then
        some { s with main := afterPoll staNetworkEn s.gFds answer }
      else none
  | .wscliRecv rLen, s =>
      match s.main with
      | .receiving eventRevents =>
          if rLen < 0 then
            some { s with gFds := s.gFds.dropSocket, main := .returned 0 }
          else some { s with main := checkEventfd s.gFds eventRevents }
      | _ => none
  | .eventfdRead, s =>
      if s.main = .reading ∧ 0 < s.counter then
        some { s with counter := 0, main := .draining }
      else none
  | .slistGet node, s =>
      if s.main = .draining ∧ node = s.evtList.head? then
        some { s with evtList := s.evtList.tail, main := afterGet node }
      else none
  | .dispatch msg action, s =>
      if s.main = .handling msg ∧ action = evtAction staNetworkEn s.gFds msg then
        some { s with main := .draining }
      else none
  | .sleepEnds, s =>
      match s.main with
      | .returned _ => some { s with main := .polling }
      | _ => none

abbrev Step (staNetworkEn : Bool) :
    EvtSystem Thread → Label Thread → EvtSystem Thread → Prop :=
  TransitionPaths.FunctionStep (step staNetworkEn)

/-- What a step of the system requires and does. -/
inductive Effect (staNetworkEn : Bool) (s : EvtSystem Thread) :
    Label Thread → EvtSystem Thread → Prop where
  | evtSend (thread : Thread) (type len data : UInt32)
      (idle : s.senders thread = .idle) :
      Effect staNetworkEn s (.evtSend thread type len data)
        (s.setSender thread (.filled ⟨type, len, data⟩))
  | append (thread : Thread) (msg : EvtMsg)
      (filled : s.senders thread = .filled msg) :
      Effect staNetworkEn s (.append thread msg)
        ({ s with evtList := s.evtList ++ [msg] }.setSender thread .appended)
  | eventfdWrite (thread : Thread)
      (appended : s.senders thread = .appended) :
      Effect staNetworkEn s (.eventfdWrite thread)
        ({ s with counter := s.counter + 1 }.setSender thread .idle)
  | pollReturns (answer : PollAnswer) (polling : s.main = .polling)
      (allowed : answer.Allowed s.counter s.gFds) :
      Effect staNetworkEn s (.pollReturns answer)
        { s with main := afterPoll staNetworkEn s.gFds answer }
  | socketLost (rLen : Int) (eventRevents : UInt16)
      (receiving : s.main = .receiving eventRevents) (failed : rLen < 0) :
      Effect staNetworkEn s (.wscliRecv rLen)
        { s with gFds := s.gFds.dropSocket, main := .returned 0 }
  | received (rLen : Int) (eventRevents : UInt16)
      (receiving : s.main = .receiving eventRevents) (arrived : ¬ rLen < 0) :
      Effect staNetworkEn s (.wscliRecv rLen)
        { s with main := checkEventfd s.gFds eventRevents }
  | eventfdRead (reading : s.main = .reading) (positive : 0 < s.counter) :
      Effect staNetworkEn s .eventfdRead
        { s with counter := 0, main := .draining }
  | empty (draining : s.main = .draining) (drained : s.evtList = []) :
      Effect staNetworkEn s (.slistGet none) { s with main := .returned 0 }
  | taken (draining : s.main = .draining) (msg : EvtMsg) (msgs : List EvtMsg)
      (queued : s.evtList = msg :: msgs) :
      Effect staNetworkEn s (.slistGet (some msg))
        { s with evtList := msgs, main := .handling msg }
  | dispatch (msg : EvtMsg) (handling : s.main = .handling msg) :
      Effect staNetworkEn s
        (.dispatch msg (evtAction staNetworkEn s.gFds msg))
        { s with main := .draining }
  | sleepEnds (ret : Int) (returned : s.main = .returned ret) :
      Effect staNetworkEn s .sleepEnds { s with main := .polling }

theorem step_effect {staNetworkEn : Bool} {s s' : EvtSystem Thread}
    {label : Label Thread} (stepped : Step staNetworkEn s label s') :
    Effect staNetworkEn s label s' := by
  have stepped : step staNetworkEn label s = some s' := stepped
  cases label with
  | evtSend thread type len data =>
      obtain ⟨idle, ⟨⟩⟩ := Option.ite_none_right_eq_some.mp stepped
      exact .evtSend thread type len data idle
  | append thread msg =>
      obtain ⟨filled, ⟨⟩⟩ := Option.ite_none_right_eq_some.mp stepped
      exact .append thread msg filled
  | eventfdWrite thread =>
      obtain ⟨⟨appended, -⟩, ⟨⟩⟩ := Option.ite_none_right_eq_some.mp stepped
      rw [s.signal_eq]
      exact .eventfdWrite thread appended
  | pollReturns answer =>
      obtain ⟨⟨polling, allowed⟩, ⟨⟩⟩ :=
        Option.ite_none_right_eq_some.mp stepped
      exact .pollReturns answer polling allowed
  | wscliRecv rLen =>
      simp only [step] at stepped
      split at stepped
      · rename_i eventRevents receiving
        by_cases failed : rLen < 0
        · rw [if_pos failed] at stepped
          cases stepped
          exact .socketLost rLen eventRevents receiving failed
        · rw [if_neg failed] at stepped
          cases stepped
          exact .received rLen eventRevents receiving failed
      · cases stepped
  | eventfdRead =>
      obtain ⟨⟨reading, positive⟩, ⟨⟩⟩ :=
        Option.ite_none_right_eq_some.mp stepped
      exact .eventfdRead reading positive
  | slistGet node =>
      obtain ⟨⟨draining, head⟩, ⟨⟩⟩ := Option.ite_none_right_eq_some.mp stepped
      rcases s with ⟨evtList, counter, gFds, senders, main⟩
      cases evtList with
      | nil =>
          subst head
          exact .empty draining rfl
      | cons msg msgs =>
          subst head
          exact .taken draining msg msgs rfl
  | dispatch msg action =>
      obtain ⟨⟨handling, called⟩, ⟨⟩⟩ :=
        Option.ite_none_right_eq_some.mp stepped
      subst called
      exact .dispatch msg handling
  | sleepEnds =>
      simp only [step] at stepped
      split at stepped
      · rename_i ret returned
        cases stepped
        exact .sleepEnds ret returned
      · cases stepped

end Step

end EventLoop

end SzpiSta
