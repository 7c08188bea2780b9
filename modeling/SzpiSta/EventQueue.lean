import SzpiSta.EventLoop

/-!
# Every message is served, in order, and none waits unannounced

The history of a run accounts for every message appended: it was dispatched, it
is in the main thread's hand, or it is still in the list.  While one is in the
list, the main thread is draining, or the eventfd tells it to, or a sender is
about to write to the eventfd.
-/

namespace SzpiSta

namespace EventLoop

open TransitionPaths

variable {Thread : Type}

/-- The message a step appends to the list. -/
def Label.appended : Label Thread → Option EvtMsg
  | .append _ msg => some msg
  | _ => none

/-- The message a step dispatches. -/
def Label.dispatched : Label Thread → Option EvtMsg
  | .dispatch msg _ => some msg
  | _ => none

/-- The messages appended in a run, in order. -/
def appendedBy (labels : List (Label Thread)) : List EvtMsg :=
  labels.filterMap Label.appended

/-- The messages dispatched in a run, in order. -/
def dispatchedBy (labels : List (Label Thread)) : List EvtMsg :=
  labels.filterMap Label.dispatched

theorem appendedBy_concat (history : List (Label Thread))
    (label : Label Thread) :
    appendedBy (history ++ [label]) =
      appendedBy history ++ label.appended.toList := by
  unfold appendedBy
  rw [List.filterMap_append]
  cases appended : label.appended <;> simp [appended]

theorem dispatchedBy_concat (history : List (Label Thread))
    (label : Label Thread) :
    dispatchedBy (history ++ [label]) =
      dispatchedBy history ++ label.dispatched.toList := by
  unfold dispatchedBy
  rw [List.filterMap_append]
  cases dispatched : label.dispatched <;> simp [dispatched]

/-- The message taken off the list and not dispatched yet. -/
def MainPc.inHand : MainPc → List EvtMsg
  | .handling msg => [msg]
  | _ => []

/-- The messages appended and not dispatched yet. -/
def EvtSystem.pending (s : EvtSystem Thread) : List EvtMsg :=
  s.main.inHand ++ s.evtList

/-- The messages appended are the ones dispatched and the pending ones, in that
order. -/
def Served (history : List (Label Thread)) (s : EvtSystem Thread) : Prop :=
  appendedBy history = dispatchedBy history ++ s.pending

/-- Between `eventfd_read` and the `sys_slist_get` that finds the list empty. -/
def MainPc.Draining (pc : MainPc) : Prop :=
  pc = .draining ∨ ∃ msg, pc = .handling msg

/-- The main thread has seen the eventfd ready and will read it. -/
def MainPc.SawEvent (pc : MainPc) : Prop :=
  pc = .reading ∨ ∃ revents, pc = .receiving revents ∧ revents ≠ 0

/-- The main thread is draining, or something will make it drain. -/
def EvtSystem.WakeupDue (s : EvtSystem Thread) : Prop :=
  (∃ thread, s.senders thread = .appended) ∨ 0 < s.counter ∨ s.main.Draining

/-- The system when the main loop starts. -/
structure Initialized (s : EvtSystem Thread) : Prop where
  evtList : s.evtList = []
  counter : s.counter = 0
  senders : ∀ thread, s.senders thread = .idle
  main : s.main = .polling

section AfterPoll

variable {staNetworkEn : Bool} {gFds : GFds}

theorem checkEventfd_cases (gFds : GFds) (eventRevents : UInt16) :
    (checkEventfd gFds eventRevents = .reading ∧ eventRevents ≠ 0) ∨
      checkEventfd gFds eventRevents = .returned 0 := by
  unfold checkEventfd
  rw [if_pos gFds.eventFd_valid]
  by_cases ready : eventRevents ≠ 0
  · exact .inl ⟨if_pos ready, ready⟩
  · exact .inr (if_neg ready)

/-- Where `poll_loop` goes once `poll` has returned. -/
theorem afterPoll_cases (staNetworkEn : Bool) (gFds : GFds)
    (answer : PollAnswer) :
    (∃ ret, afterPoll staNetworkEn gFds answer = .returned ret) ∨
      (¬ answer.ret < 0 ∧
        (afterPoll staNetworkEn gFds answer = .receiving answer.eventRevents ∨
          afterPoll staNetworkEn gFds answer =
            checkEventfd gFds answer.eventRevents)) := by
  unfold afterPoll
  by_cases failed : answer.ret < 0
  · exact .inl ⟨_, if_pos failed⟩
  · rw [if_neg failed]
    by_cases timeout : answer.ret = 0
    · exact .inl ⟨_, if_pos timeout⟩
    · rw [if_neg timeout]
      split
      · split
        · exact .inl ⟨_, rfl⟩
        · split
          · exact .inl ⟨_, rfl⟩
          · split
            · exact .inr ⟨failed, .inl rfl⟩
            · exact .inr ⟨failed, .inr rfl⟩
      · exact .inr ⟨failed, .inr rfl⟩

theorem not_sawEvent_returned (ret : Int) : ¬ (MainPc.returned ret).SawEvent := by
  rintro (reading | ⟨revents, receiving, -⟩)
  · cases reading
  · cases receiving

theorem revents_of_checkEventfd {eventRevents : UInt16}
    (saw : (checkEventfd gFds eventRevents).SawEvent) : eventRevents ≠ 0 := by
  rcases checkEventfd_cases gFds eventRevents with ⟨-, ready⟩ | same
  · exact ready
  · rw [same] at saw
    exact (not_sawEvent_returned 0 saw).elim

/-- `poll` reported the eventfd to a `poll_loop` that will read it. -/
theorem counter_pos_of_afterPoll {answer : PollAnswer} {counter : Nat}
    (allowed : answer.Allowed counter gFds)
    (saw : (afterPoll staNetworkEn gFds answer).SawEvent) : 0 < counter := by
  rcases afterPoll_cases staNetworkEn gFds answer with
    ⟨ret, same⟩ | ⟨succeeded, goesOn⟩
  · rw [same] at saw
    exact (not_sawEvent_returned ret saw).elim
  · have ready : answer.eventRevents ≠ 0 := by
      rcases goesOn with same | same
      · rw [same] at saw
        rcases saw with reading | ⟨revents, receiving, ready⟩
        · cases reading
        · cases receiving
          exact ready
      · rw [same] at saw
        exact revents_of_checkEventfd saw
    obtain ⟨reported, -⟩ := allowed.resolve_left succeeded
    by_contra zero
    rw [if_neg zero] at reported
    exact ready reported

/-- What `poll_loop` does after `poll` concerns no message. -/
theorem inHand_checkEventfd (gFds : GFds) (eventRevents : UInt16) :
    (checkEventfd gFds eventRevents).inHand = [] := by
  rcases checkEventfd_cases gFds eventRevents with ⟨same, -⟩ | same
  · rw [same]
    rfl
  · rw [same]
    rfl

theorem inHand_afterPoll (staNetworkEn : Bool) (gFds : GFds)
    (answer : PollAnswer) :
    (afterPoll staNetworkEn gFds answer).inHand = [] := by
  rcases afterPoll_cases staNetworkEn gFds answer with
    ⟨ret, same⟩ | ⟨-, same | same⟩
  · rw [same]
    rfl
  · rw [same]
    rfl
  · rw [same]
    exact inHand_checkEventfd gFds answer.eventRevents

end AfterPoll

/-- A wakeup stays due when the main thread moves that does not drain. -/
theorem EvtSystem.WakeupDue.moveMain {s : EvtSystem Thread} (pc : MainPc)
    (gFds : GFds) (due : s.WakeupDue)
    (notDraining : ¬ s.main.Draining) :
    ({ s with gFds, main := pc } : EvtSystem Thread).WakeupDue := by
  rcases due with appended | positive | draining
  · exact .inl appended
  · exact .inr (.inl positive)
  · exact (notDraining draining).elim

section Steps

variable [DecidableEq Thread] {staNetworkEn : Bool}
variable {s s' : EvtSystem Thread} {label : Label Thread}

/-- A step takes what it dispatches from the front of what is pending and puts
what it appends at the end. -/
theorem pending_step (stepped : Step staNetworkEn s label s') :
    s.pending ++ label.appended.toList =
      label.dispatched.toList ++ s'.pending := by
  unfold EvtSystem.pending
  cases step_effect stepped with
  | evtSend => simp [Label.appended, Label.dispatched]
  | append => simp [Label.appended, Label.dispatched]
  | eventfdWrite => simp [Label.appended, Label.dispatched]
  | pollReturns answer polling =>
      simp only [polling, inHand_afterPoll]
      exact List.append_nil s.evtList
  | socketLost rLen eventRevents receiving =>
      simp [Label.appended, Label.dispatched, receiving, MainPc.inHand]
  | received rLen eventRevents receiving =>
      simp only [receiving, inHand_checkEventfd]
      exact List.append_nil s.evtList
  | eventfdRead reading =>
      simp [Label.appended, Label.dispatched, reading, MainPc.inHand]
  | empty draining =>
      simp [Label.appended, Label.dispatched, draining, MainPc.inHand]
  | taken draining msg msgs queued =>
      simp [Label.appended, Label.dispatched, draining, queued, MainPc.inHand]
  | dispatch msg handling =>
      simp [Label.appended, Label.dispatched, handling, MainPc.inHand]
  | sleepEnds ret returned =>
      simp [Label.appended, Label.dispatched, returned, MainPc.inHand]

/-- A wakeup stays due when a thread moves that has not appended. -/
theorem EvtSystem.WakeupDue.setSender {thread : Thread} (pc : SendPc)
    (due : s.WakeupDue) (notYet : s.senders thread ≠ .appended) :
    (s.setSender thread pc).WakeupDue := by
  rcases due with ⟨other, appended⟩ | due
  · have apart : other ≠ thread := by
      rintro rfl
      exact notYet appended
    exact .inl ⟨other, (s.setSender_of_ne apart pc).trans appended⟩
  · exact .inr due

/-- While the list is not empty, a wakeup stays due. -/
theorem wakeupDue_step (stepped : Step staNetworkEn s label s')
    (due : s.evtList ≠ [] → s.WakeupDue) : s'.evtList ≠ [] → s'.WakeupDue := by
  intro queued
  cases step_effect stepped with
  | evtSend thread type len data idle =>
      exact (due queued).setSender _ (by simp [idle])
  | append thread => exact .inl ⟨thread, EvtSystem.setSender_self _ _ _⟩
  | eventfdWrite => exact .inr (.inl (Nat.succ_pos s.counter))
  | pollReturns answer polling =>
      exact (due queued).moveMain _ s.gFds (by simp [polling, MainPc.Draining])
  | socketLost rLen eventRevents receiving =>
      exact (due queued).moveMain _ _ (by simp [receiving, MainPc.Draining])
  | received rLen eventRevents receiving =>
      exact (due queued).moveMain _ s.gFds
        (by simp [receiving, MainPc.Draining])
  | eventfdRead => exact .inr (.inr (.inl rfl))
  | empty draining drained => exact (queued drained).elim
  | taken draining msg => exact .inr (.inr (.inr ⟨msg, rfl⟩))
  | dispatch => exact .inr (.inr (.inl rfl))
  | sleepEnds ret returned =>
      exact (due queued).moveMain _ s.gFds (by simp [returned, MainPc.Draining])

/-- Only the main thread lowers the counter, and only by reading it. -/
theorem sawEvent_step (stepped : Step staNetworkEn s label s')
    (positive : s.main.SawEvent → 0 < s.counter) :
    s'.main.SawEvent → 0 < s'.counter := by
  intro saw
  cases step_effect stepped with
  | evtSend => exact positive saw
  | append => exact positive saw
  | eventfdWrite => exact Nat.succ_pos s.counter
  | pollReturns answer polling allowed =>
      exact counter_pos_of_afterPoll allowed saw
  | socketLost => exact (not_sawEvent_returned 0 saw).elim
  | received rLen eventRevents receiving =>
      exact positive (.inr ⟨_, receiving, revents_of_checkEventfd saw⟩)
  | eventfdRead => simp [MainPc.SawEvent] at saw
  | empty => exact (not_sawEvent_returned 0 saw).elim
  | taken => simp [MainPc.SawEvent] at saw
  | dispatch => simp [MainPc.SawEvent] at saw
  | sleepEnds => simp [MainPc.SawEvent] at saw

theorem Served.step {history : List (Label Thread)} (served : Served history s)
    (stepped : Step staNetworkEn s label s') :
    Served (history ++ [label]) s' := by
  unfold Served
  calc
    appendedBy (history ++ [label]) =
        appendedBy history ++ label.appended.toList :=
      appendedBy_concat history label
    _ = dispatchedBy history ++ (s.pending ++ label.appended.toList) := by
      rw [show appendedBy history = _ from served, List.append_assoc]
    _ = dispatchedBy history ++ (label.dispatched.toList ++ s'.pending) := by
      rw [pending_step stepped]
    _ = dispatchedBy (history ++ [label]) ++ s'.pending := by
      rw [dispatchedBy_concat, List.append_assoc]

variable {start : EvtSystem Thread} {labels : List (Label Thread)}

theorem served_of_path (initial : Initialized start)
    (run : Path (Step staNetworkEn) start labels s) : Served labels s := by
  have atStart : Served [] start := by
    rw [Served, EvtSystem.pending, initial.evtList, initial.main]
    rfl
  exact run.historyInvariant Served (fun _ _ _ _ served => served.step) atStart

theorem wakeupDue_of_queued (initial : Initialized start)
    (run : Path (Step staNetworkEn) start labels s) :
    s.evtList ≠ [] → s.WakeupDue :=
  run.invariant (fun s => s.evtList ≠ [] → s.WakeupDue)
    (fun _ _ _ due stepped => wakeupDue_step stepped due)
    fun queued => (queued initial.evtList).elim

/-- Every message appended is dispatched at most once, in order, and not lost;
and while one is in the list the main thread does not sleep over it. -/
theorem events_served (initial : Initialized start)
    (run : Path (Step staNetworkEn) start labels s) :
    appendedBy labels =
        dispatchedBy labels ++ s.main.inHand ++ s.evtList ∧
      (s.evtList ≠ [] →
        (∃ thread, s.senders thread = .appended) ∨ 0 < s.counter ∨
          s.main.Draining) := by
  constructor
  · rw [List.append_assoc]
    exact served_of_path initial run
  · exact wakeupDue_of_queued initial run

/-- A loop with an eventfd and no socket, and two other threads. -/
def startedLoop : EvtSystem (Fin 2) where
  evtList := []
  counter := 0
  gFds := ⟨0, -1, by decide⟩
  senders := fun _ => .idle
  main := .polling

theorem startedLoop_initialized : Initialized startedLoop :=
  ⟨rfl, rfl, fun _ => rfl, rfl⟩

/-- The second thread appends after the counter was read for the first. -/
def twoSenders : List (Label (Fin 2)) :=
  [.evtSend 0 evtBleStart 0 0, .append 0 ⟨evtBleStart, 0, 0⟩,
    .eventfdWrite 0, .evtSend 1 evtTimerOut 0 0, .pollReturns ⟨1, pollIn, 0⟩,
    .eventfdRead, .append 1 ⟨evtTimerOut, 0, 0⟩,
    .slistGet (some ⟨evtBleStart, 0, 0⟩),
    .dispatch ⟨evtBleStart, 0, 0⟩ (some .bleRcInit)]

theorem two_senders_served : ∃ s, Path (Step true) startedLoop twoSenders s ∧
    s.evtList ≠ [] ∧
    appendedBy twoSenders =
        dispatchedBy twoSenders ++ s.main.inHand ++ s.evtList ∧
      (s.evtList ≠ [] →
        (∃ thread, s.senders thread = .appended) ∨ 0 < s.counter ∨
          s.main.Draining) := by
  have run : Path (Step true) startedLoop twoSenders _ := path_of_execute rfl
  exact ⟨_, run, List.cons_ne_nil _ _,
    events_served startedLoop_initialized run⟩

/-- `eventfd_read` never waits. -/
theorem counter_pos_of_reading (initial : Initialized start)
    (run : Path (Step staNetworkEn) start labels s)
    (reading : s.main = .reading) : 0 < s.counter := by
  refine run.invariant (fun s => s.main.SawEvent → 0 < s.counter)
    (fun _ _ _ positive stepped => sawEvent_step stepped positive) ?_
    (.inl reading)
  simp [initial.main, MainPc.SawEvent]

/-- When no sender is halfway, `poll` does not time out over a message. -/
theorem poll_reports_queued (initial : Initialized start)
    (run : Path (Step staNetworkEn) start labels s)
    (polling : s.main = .polling) (queued : s.evtList ≠ [])
    (settled : ∀ thread, s.senders thread ≠ .appended) (answer : PollAnswer)
    (allowed : answer.Allowed s.counter s.gFds) (succeeded : 0 ≤ answer.ret) :
    answer.eventRevents = pollIn ∧ 0 < answer.ret := by
  have positive : 0 < s.counter := by
    rcases wakeupDue_of_queued initial run queued with
      ⟨thread, appended⟩ | positive | draining
    · exact (settled thread appended).elim
    · exact positive
    · simp [polling, MainPc.Draining] at draining
  obtain ⟨reported, counted⟩ := allowed.resolve_left (by omega)
  rw [if_pos positive] at reported
  refine ⟨reported, ?_⟩
  have eventReady : answer.eventRevents ≠ 0 := by
    rw [reported]
    decide
  rw [counted, PollAnswer.ready, if_pos eventReady]
  split <;> decide

end Steps

end EventLoop

end SzpiSta
