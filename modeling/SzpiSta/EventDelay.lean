import SzpiSta.EventQueue

/-!
# How long a message waits

As long as `poll` does not fail and the socket reports no error, the main thread
serves what is in the list within a number of its own steps that depends only on
how many messages there are, whatever the other threads send in the meantime.
The count below goes down with every step of the main thread.
-/

namespace SzpiSta

namespace EventLoop

open TransitionPaths

variable {Thread : Type}

/-- `poll` does not fail, and it reports no error of the socket. -/
def Untroubled (_ : EvtSystem Thread) : Label Thread → Prop
  | .pollReturns answer =>
      0 ≤ answer.ret ∧ answer.socketRevents &&& pollNval = 0 ∧
        answer.socketRevents &&& pollErr = 0
  | _ => True

instance : ∀ (s : EvtSystem Thread) label, Decidable (Untroubled s label)
  | _, .pollReturns _ => inferInstanceAs (Decidable (_ ∧ _ ∧ _))
  | _, .evtSend _ _ _ _ => isTrue trivial
  | _, .append _ _ => isTrue trivial
  | _, .eventfdWrite _ => isTrue trivial
  | _, .wscliRecv _ => isTrue trivial
  | _, .eventfdRead => isTrue trivial
  | _, .slistGet _ => isTrue trivial
  | _, .dispatch _ _ => isTrue trivial
  | _, .sleepEnds => isTrue trivial

/-- Whether the main thread takes the step. -/
def Label.mainSteps : Label Thread → Nat
  | .evtSend _ _ _ _ | .append _ _ | .eventfdWrite _ => 0
  | .pollReturns _ | .wscliRecv _ | .eventfdRead | .slistGet _ | .dispatch _ _
  | .sleepEnds => 1

/-- The steps of the main thread. -/
def mainSteps : List (Label Thread) → Nat
  | [] => 0
  | label :: labels => label.mainSteps + mainSteps labels

/-- How many steps the main thread takes at most until it has served the first
`due` messages of those pending.  A socket costs it one step more in each round,
and one round if it is lost. -/
def MainPc.stepsLeft (hasSocket : Bool) (due : Nat) : MainPc → Nat
  | .handling _ => 2 * due - 1
  | .draining => 2 * due
  | .reading => 2 * due + 1
  | .receiving eventRevents =>
      if eventRevents ≠ 0 then 2 * due + 4 else 2 * due + 7
  | .polling => if hasSocket then 2 * due + 5 else 2 * due + 2
  | .returned _ => if hasSocket then 2 * due + 6 else 2 * due + 3

def EvtSystem.stepsLeft (s : EvtSystem Thread) (due : Nat) : Nat :=
  s.main.stepsLeft (0 ≤ s.gFds.socket) due

/-- The main thread drains the list or will be told to. -/
def EvtSystem.Awake (s : EvtSystem Thread) : Prop :=
  0 < s.counter ∨ s.main.Draining

section Steps

variable {staNetworkEn : Bool} {gFds : GFds} {answer : PollAnswer}

theorem mainSteps_append (first second : List (Label Thread)) :
    mainSteps (first ++ second) = mainSteps first + mainSteps second := by
  induction first with
  | nil => exact (Nat.zero_add _).symm
  | cons label first ih =>
      rw [List.cons_append, mainSteps, mainSteps, ih, Nat.add_assoc]

theorem stepsLeft_le (hasSocket : Bool) (due : Nat) (pc : MainPc) :
    pc.stepsLeft hasSocket due ≤ 2 * due + 7 := by
  cases pc with
  | handling | draining | reading => simp only [MainPc.stepsLeft]; omega
  | receiving eventRevents =>
      simp only [MainPc.stepsLeft]
      split <;> omega
  | polling | returned =>
      simp only [MainPc.stepsLeft]
      split <;> omega

theorem checkEventfd_ready {eventRevents : UInt16} (ready : eventRevents ≠ 0) :
    checkEventfd gFds eventRevents = .reading := by
  rw [checkEventfd, if_pos gFds.eventFd_valid, if_pos ready]

/-- What `poll_loop` does with an eventfd that is ready. -/
theorem afterPoll_ready (staNetworkEn : Bool) {counter : Nat}
    (allowed : answer.Allowed counter gFds) (positive : 0 < counter)
    (succeeded : 0 ≤ answer.ret)
    (valid : answer.socketRevents &&& pollNval = 0)
    (noError : answer.socketRevents &&& pollErr = 0) :
    answer.eventRevents ≠ 0 ∧
      (afterPoll staNetworkEn gFds answer = .reading ∨
        0 ≤ gFds.socket ∧
          afterPoll staNetworkEn gFds answer =
            .receiving answer.eventRevents) := by
  obtain ⟨reported, counted⟩ :=
    allowed.resolve_left (Int.not_lt.mpr succeeded)
  have ready : answer.eventRevents ≠ 0 := by
    rw [reported, if_pos positive]
    decide
  have notTimeout : answer.ret ≠ 0 := by
    rw [counted, PollAnswer.ready, if_pos ready]
    split <;> decide
  refine ⟨ready, ?_⟩
  rw [afterPoll, if_neg (Int.not_lt.mpr succeeded), if_neg notTimeout,
    checkEventfd_ready ready]
  split
  · rename_i looks
    rw [if_neg (not_not_intro valid), if_neg (not_not_intro noError)]
    split
    · exact .inr ⟨looks.2, rfl⟩
    · exact .inl rfl
  · exact .inl rfl

/-- A round in which the eventfd is ready. -/
theorem stepsLeft_afterPoll {counter : Nat} (due : Nat)
    (allowed : answer.Allowed counter gFds) (positive : 0 < counter)
    (succeeded : 0 ≤ answer.ret)
    (valid : answer.socketRevents &&& pollNval = 0)
    (noError : answer.socketRevents &&& pollErr = 0) :
    (afterPoll staNetworkEn gFds answer).stepsLeft (0 ≤ gFds.socket) due <
      MainPc.polling.stepsLeft (0 ≤ gFds.socket) due := by
  obtain ⟨ready, reads | ⟨hasSocket, receives⟩⟩ :=
    afterPoll_ready staNetworkEn allowed positive succeeded valid noError
  · rw [reads]
    simp only [MainPc.stepsLeft]
    split <;> omega
  · rw [receives]
    simp only [MainPc.stepsLeft, ready, hasSocket, decide_true, ne_eq,
      not_false_eq_true, if_true]
    omega

/-- The socket is lost, which costs a round. -/
theorem stepsLeft_lost (hasSocket : Bool) (due : Nat) (ret : Int)
    (eventRevents : UInt16) :
    (MainPc.returned ret).stepsLeft false due + 1 ≤
      (MainPc.receiving eventRevents).stepsLeft hasSocket due := by
  simp only [MainPc.stepsLeft, Bool.false_eq_true, if_false]
  split <;> omega

theorem stepsLeft_received (hasSocket : Bool) (due : Nat)
    (eventRevents : UInt16) :
    (checkEventfd gFds eventRevents).stepsLeft hasSocket due + 1 ≤
      (MainPc.receiving eventRevents).stepsLeft hasSocket due := by
  by_cases ready : eventRevents ≠ 0
  · rw [checkEventfd_ready ready]
    simp only [MainPc.stepsLeft, if_pos ready]
    omega
  · rw [checkEventfd, if_pos gFds.eventFd_valid, if_neg ready]
    simp only [MainPc.stepsLeft, if_neg ready]
    split <;> omega

variable [DecidableEq Thread]
variable {s s' : EvtSystem Thread} {label : Label Thread}

/-- A step keeps the main thread awake for what is still due, and counts down if
the main thread takes it. -/
theorem stepsLeft_step (due : Nat) (stepped : Step staNetworkEn s label s')
    (untroubled : Untroubled s label) (positive : 0 < due)
    (queued : due ≤ s.pending.length) (awake : s.Awake) :
    s'.Awake ∧
      s'.stepsLeft (due - label.dispatched.toList.length) + label.mainSteps ≤
        s.stepsLeft due := by
  have notIdle (pc : MainPc) (isMain : s.main = pc) (away : ¬ pc.Draining) :
      0 < s.counter := by
    rcases awake with positive | draining
    · exact positive
    · rw [isMain] at draining
      exact (away draining).elim
  unfold EvtSystem.stepsLeft
  cases step_effect stepped with
  | evtSend => exact ⟨awake, Nat.le_refl _⟩
  | append => exact ⟨awake, Nat.le_refl _⟩
  | eventfdWrite =>
      exact ⟨.inl (Nat.succ_pos s.counter), Nat.le_refl _⟩
  | pollReturns answer polling allowed =>
      have counted := notIdle _ polling (by simp [MainPc.Draining])
      refine ⟨.inl counted, ?_⟩
      rw [polling]
      exact stepsLeft_afterPoll due allowed counted untroubled.1 untroubled.2.1
        untroubled.2.2
  | socketLost rLen eventRevents receiving =>
      have counted := notIdle _ receiving (by simp [MainPc.Draining])
      refine ⟨.inl counted, ?_⟩
      rw [receiving]
      exact stepsLeft_lost _ due 0 eventRevents
  | received rLen eventRevents receiving =>
      have counted := notIdle _ receiving (by simp [MainPc.Draining])
      refine ⟨.inl counted, ?_⟩
      rw [receiving]
      exact stepsLeft_received _ due eventRevents
  | eventfdRead reading =>
      refine ⟨.inr (.inl rfl), ?_⟩
      rw [reading]
      exact Nat.le_refl _
  | empty draining drained =>
      rw [EvtSystem.pending, draining, drained] at queued
      exact (Nat.not_lt.mpr queued positive).elim
  | taken draining msg msgs =>
      refine ⟨.inr (.inr ⟨msg, rfl⟩), ?_⟩
      rw [draining]
      simp only [MainPc.stepsLeft, Label.mainSteps, Label.dispatched,
        Option.toList_none, List.length_nil]
      omega
  | dispatch msg handling =>
      refine ⟨.inr (.inl rfl), ?_⟩
      rw [handling]
      simp only [MainPc.stepsLeft, Label.mainSteps, Label.dispatched,
        Option.toList_some, List.length_singleton]
      omega
  | sleepEnds ret returned =>
      have counted := notIdle _ returned (by simp [MainPc.Draining])
      refine ⟨.inl counted, ?_⟩
      rw [returned]
      simp only [MainPc.stepsLeft, Label.mainSteps, Label.dispatched,
        Option.toList_none, List.length_nil]
      split <;> omega

/-- What is due after a run `base`: either it has been served, or the main
thread has `bound` steps for it, of which it has taken those of the history. -/
structure Delayed (base : List (Label Thread)) (bound : Nat)
    (history : List (Label Thread)) (s : EvtSystem Thread) : Prop where
  served : Served (base ++ history) s
  appended : (appendedBy base).length ≤ (appendedBy (base ++ history)).length
  soon : (appendedBy base).length ≤ (dispatchedBy (base ++ history)).length ∨
    s.Awake ∧ mainSteps history +
        s.stepsLeft ((appendedBy base).length -
          (dispatchedBy (base ++ history)).length) ≤ bound

theorem Delayed.step {base history : List (Label Thread)} {bound : Nat}
    (delayed : Delayed base bound history s)
    (stepped : Step staNetworkEn s label s')
    (untroubled : Untroubled s label) :
    Delayed base bound (history ++ [label]) s' := by
  have served := delayed.served.step stepped
  have dispatched := congrArg List.length
    (dispatchedBy_concat (base ++ history) label)
  have appended := congrArg List.length
    (appendedBy_concat (base ++ history) label)
  have counted := congrArg List.length (show _ = _ from delayed.served)
  rw [List.length_append] at dispatched appended counted
  rw [List.append_assoc] at served dispatched appended
  have before := delayed.appended
  refine ⟨served, by omega, ?_⟩
  by_cases already : (appendedBy base).length ≤
      (dispatchedBy (base ++ (history ++ [label]))).length
  · exact .inl already
  · obtain ⟨awake, bounded⟩ :=
      delayed.soon.resolve_left (fun earlier => already (by omega))
    obtain ⟨awake', less⟩ := stepsLeft_step
      ((appendedBy base).length - (dispatchedBy (base ++ history)).length)
      stepped untroubled (by omega) (by omega) awake
    have left : (appendedBy base).length -
          (dispatchedBy (base ++ (history ++ [label]))).length =
        (appendedBy base).length - (dispatchedBy (base ++ history)).length -
          label.dispatched.toList.length := by
      omega
    have steps : mainSteps (history ++ [label]) =
        mainSteps history + label.mainSteps := by
      rw [mainSteps_append]
      rfl
    rw [left, steps]
    exact .inr ⟨awake', by omega⟩

variable {start : EvtSystem Thread} {labels : List (Label Thread)}

/-- With no sender between its append and its write to the eventfd. -/
theorem delayed_of_settled (initial : Initialized start)
    (run : Path (Step staNetworkEn) start labels s)
    (settled : ∀ thread, s.senders thread ≠ .appended) :
    Delayed labels (2 * s.pending.length + 7) [] s := by
  have served := served_of_path initial run
  have counted := congrArg List.length (show _ = _ from served)
  rw [List.length_append] at counted
  refine ⟨by simpa using served, by simp, ?_⟩
  rw [List.append_nil]
  by_cases none : s.pending = []
  · rw [none, List.length_nil] at counted
    exact .inl (by omega)
  · have awake : s.Awake := by
      by_cases queued : s.evtList = []
      · rw [EvtSystem.pending, queued, List.append_nil] at none
        cases place : s.main with
        | handling msg => exact .inr (.inr ⟨msg, place⟩)
        | _ =>
            rw [place] at none
            exact (none rfl).elim
      · rcases wakeupDue_of_queued initial run queued with
          ⟨thread, appended⟩ | due
        · exact (settled thread appended).elim
        · exact due
    have due : (appendedBy labels).length - (dispatchedBy labels).length =
        s.pending.length := by
      omega
    rw [due]
    refine .inr ⟨awake, ?_⟩
    have bound := stepsLeft_le (0 ≤ s.gFds.socket) s.pending.length s.main
    rw [mainSteps, Nat.zero_add]
    exact bound

/-- The main thread never waits for another thread. -/
theorem main_goes_on (initial : Initialized start)
    (run : Path (Step staNetworkEn) start labels s) :
    ∃ label s', Untroubled s label ∧ label.mainSteps = 1 ∧
      Step staNetworkEn s label s' := by
  cases place : s.main with
  | polling =>
      have untroubled (ret : Int) (eventRevents : UInt16) (succeeded : 0 ≤ ret) :
          Untroubled s (.pollReturns ⟨ret, eventRevents, 0⟩) :=
        ⟨succeeded, UInt16.zero_and, UInt16.zero_and⟩
      by_cases positive : 0 < s.counter
      · refine ⟨.pollReturns ⟨1, pollIn, 0⟩, _, untroubled 1 _ (by decide), rfl,
          if_pos ⟨place, .inr ⟨(if_pos positive).symm, ?_⟩⟩⟩
        simp [PollAnswer.ready, pollIn]
      · refine ⟨.pollReturns ⟨0, 0, 0⟩, _, untroubled 0 _ (by decide), rfl,
          if_pos ⟨place, .inr ⟨(if_neg positive).symm, ?_⟩⟩⟩
        simp [PollAnswer.ready]
  | receiving eventRevents =>
      refine ⟨.wscliRecv 0, { s with main := checkEventfd s.gFds eventRevents },
        trivial, rfl, ?_⟩
      change step staNetworkEn (.wscliRecv 0) s = _
      rw [step, place]
      exact if_neg (by decide)
  | reading =>
      have positive := counter_pos_of_reading initial run place
      exact ⟨.eventfdRead, _, trivial, rfl, if_pos ⟨place, positive⟩⟩
  | draining =>
      exact ⟨.slistGet s.evtList.head?, _, trivial, rfl, if_pos ⟨place, rfl⟩⟩
  | handling msg =>
      exact ⟨.dispatch msg (evtAction staNetworkEn s.gFds msg), _, trivial, rfl,
        if_pos ⟨place, rfl⟩⟩
  | returned ret =>
      refine ⟨.sleepEnds, { s with main := .polling }, trivial, rfl, ?_⟩
      change step staNetworkEn .sleepEnds s = _
      rw [step, place]

end Steps

/-- In every run, once no sender is between its append and its write to the
eventfd: if `poll` neither fails nor reports an error of the socket, then
everything appended so far has been dispatched, in order, when the main thread
has taken two steps for each message that was pending and eight more, whatever
the others append in the meantime.  And the main thread can always take its next
step. -/
theorem pending_served_within {Thread : Type} [DecidableEq Thread]
    {staNetworkEn : Bool} {start s t : EvtSystem Thread}
    {labels later : List (Label Thread)} (initial : Initialized start)
    (run : Path (Step staNetworkEn) start labels s)
    (settled : ∀ thread, s.senders thread ≠ .appended)
    (calm : Path (Restrict (Step staNetworkEn) Untroubled) s later t) :
    (2 * s.pending.length + 8 ≤ mainSteps later →
        appendedBy labels <+: dispatchedBy (labels ++ later)) ∧
      ∃ label t', Untroubled t label ∧ label.mainSteps = 1 ∧
        Step staNetworkEn t label t' := by
  have whole := run.append calm.unrestrict
  refine ⟨fun long => ?_, main_goes_on initial whole⟩
  have delayed := calm.historyInvariant
    (Delayed labels (2 * s.pending.length + 7))
    (fun _ _ _ _ delayed taken => delayed.step taken.1 taken.2)
    (delayed_of_settled initial run settled)
  rw [List.nil_append] at delayed
  have enough : (appendedBy labels).length ≤
      (dispatchedBy (labels ++ later)).length := by
    rcases delayed.soon with served | ⟨-, bounded⟩
    · exact served
    · omega
  have earlier : appendedBy labels <+: appendedBy (labels ++ later) := by
    rw [appendedBy, appendedBy, List.filterMap_append]
    exact List.prefix_append _ _
  have served : dispatchedBy (labels ++ later) <+:
      appendedBy (labels ++ later) := by
    rw [show appendedBy (labels ++ later) = _ from delayed.served]
    exact List.prefix_append _ _
  exact List.prefix_of_prefix_length_le earlier served enough

/-- The threads that send messages. -/
inductive SendingThread where
  | main
  | timer
  deriving DecidableEq

/-- The loop before its first message. -/
def quietLoop : EvtSystem SendingThread where
  evtList := []
  counter := 0
  gFds := startedLoop.gFds
  senders := fun _ => .idle
  main := .polling

/-- One message, sent and signalled. -/
def oneMessage : List (Label SendingThread) :=
  [.evtSend .main evtBleStart 0 0, .append .main ⟨evtBleStart, 0, 0⟩,
    .eventfdWrite .main]

/-- The rounds of the main thread, and a second message in between. -/
def rounds : List (Label SendingThread) :=
  [.pollReturns ⟨1, pollIn, 0⟩, .evtSend .timer evtTimerOut 0 0, .eventfdRead,
    .slistGet (some ⟨evtBleStart, 0, 0⟩), .append .timer ⟨evtTimerOut, 0, 0⟩,
    .dispatch ⟨evtBleStart, 0, 0⟩ (some .bleRcInit),
    .slistGet (some ⟨evtTimerOut, 0, 0⟩), .dispatch ⟨evtTimerOut, 0, 0⟩ none,
    .slistGet none, .eventfdWrite .timer, .sleepEnds, .pollReturns ⟨1, pollIn, 0⟩,
    .eventfdRead]

theorem one_message_served_within : ∃ s t,
    Path (Step true) quietLoop oneMessage s ∧
      Path (Restrict (Step true) Untroubled) s rounds t ∧
      appendedBy oneMessage <+: dispatchedBy (oneMessage ++ rounds) := by
  have run : Path (Step true) quietLoop oneMessage
      ((execute (step true) oneMessage quietLoop).getD quietLoop) :=
    path_of_execute rfl
  have calm : Path (Restrict (Step true) Untroubled)
      ((execute (step true) oneMessage quietLoop).getD quietLoop) rounds _ :=
    path_restrict_of_execute rfl
  exact ⟨_, _, run, calm,
    (pending_served_within ⟨rfl, rfl, fun _ => rfl, rfl⟩ run
      (fun thread => by cases thread <;> decide) calm).1 (by decide)⟩

end EventLoop

end SzpiSta
