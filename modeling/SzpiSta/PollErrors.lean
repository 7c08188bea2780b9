import SzpiSta.EventLoop

/-!
# Socket errors and the event queue

`poll_loop` returns early when `poll` reports an error on the socket.  It leaves
the socket in `g_fds` and does not look at the eventfd, and as `poll` reports the
error again, the next call returns from the same place: queued events wait for as
long as the error lasts.
-/

namespace SzpiSta

namespace EventLoop

open TransitionPaths

variable {Thread : Type}

/-- The answer makes `poll_loop` return from the POLLNVAL or the POLLERR
branch. -/
def ErrorBranch (staNetworkEn : Bool) (gFds : GFds) (answer : PollAnswer) :
    Prop :=
  0 < answer.ret ∧ staNetworkEn = true ∧ 0 ≤ gFds.socket ∧
    (answer.socketRevents &&& pollNval ≠ 0 ∨
      answer.socketRevents &&& pollErr ≠ 0)

/-- A call that returns from one of the two branches has removed the socket, or
the eventfd has nothing more to report. -/
def ErrorHandled (staNetworkEn : Bool) (before : EvtSystem Thread)
    (label : Label Thread) (after : EvtSystem Thread) : Prop :=
  ∀ answer, label = .pollReturns answer →
    ErrorBranch staNetworkEn before.gFds answer →
    after.gFds.socket < 0 ∨ after.counter = 0

/-- `poll` reports no error on the socket while the eventfd is ready. -/
def NoErrorWhileReady (staNetworkEn : Bool) (before : EvtSystem Thread)
    (label : Label Thread) : Prop :=
  ∀ answer, label = .pollReturns answer →
    ErrorBranch staNetworkEn before.gFds answer → before.counter = 0

def Label.IsPoll : Label Thread → Prop
  | .pollReturns _ => True
  | _ => False

variable [DecidableEq Thread]

/-- No two calls of `poll_loop` in a row return from these branches for the same
descriptor while the eventfd is ready. -/
def NeverTwice (staNetworkEn : Bool) (first : EvtSystem Thread)
    (labels : List (Label Thread)) (last : EvtSystem Thread) : Prop :=
  ∀ earlier answer between answer' later before after before' after',
    labels = earlier ++ .pollReturns answer ::
      (between ++ .pollReturns answer' :: later) →
    Path (Step staNetworkEn) first earlier before →
    Step staNetworkEn before (.pollReturns answer) after →
    Path (Step staNetworkEn) after between before' →
    Step staNetworkEn before' (.pollReturns answer') after' →
    Path (Step staNetworkEn) after' later last →
    (∀ label ∈ between, ¬ label.IsPoll) →
    ErrorBranch staNetworkEn before.gFds answer →
    ErrorBranch staNetworkEn before'.gFds answer' →
    before.gFds.socket = before'.gFds.socket →
    ¬ (0 < before.counter ∧ 0 < before'.counter)

section Calls

variable {staNetworkEn : Bool} {before after : EvtSystem Thread}
variable {answer : PollAnswer} {label : Label Thread}

theorem afterPoll_of_errorBranch {gFds : GFds}
    (error : ErrorBranch staNetworkEn gFds answer) :
    afterPoll staNetworkEn gFds answer = .returned (-eBadf) ∨
      afterPoll staNetworkEn gFds answer = .returned (-eIo) := by
  obtain ⟨positive, enabled, valid, reported⟩ := error
  unfold afterPoll
  rw [if_neg (by omega), if_neg (by omega), if_pos ⟨enabled, valid⟩]
  by_cases nval : answer.socketRevents &&& pollNval ≠ 0
  · exact .inl (if_pos nval)
  · rw [if_neg nval, if_pos (reported.resolve_left nval)]
    exact .inr rfl

/-- The call leaves socket and eventfd as they are. -/
theorem poll_keeps (step : Step staNetworkEn before (.pollReturns answer) after) :
    after.gFds = before.gFds ∧ after.counter = before.counter := by
  cases step_effect step with
  | pollReturns polling allowed => exact ⟨rfl, rfl⟩

theorem errorHandled_iff (step : Step staNetworkEn before label after) :
    ErrorHandled staNetworkEn before label after ↔
      NoErrorWhileReady staNetworkEn before label := by
  constructor
  · rintro handled answer rfl error
    obtain ⟨sameFds, sameCounter⟩ := poll_keeps step
    rcases handled answer rfl error with dropped | served
    · rw [sameFds] at dropped
      have := error.2.2.1
      omega
    · rwa [sameCounter] at served
  · rintro noError answer rfl error
    rw [(poll_keeps step).2]
    exact .inr (noError answer rfl error)

/-- A socket error is handled in every call of every run, and none is met twice
in a row, exactly if `poll` reports none while the eventfd is ready. -/
theorem socket_errors_handled_iff {first last : EvtSystem Thread}
    {labels : List (Label Thread)} :
    (EveryStep (Step staNetworkEn) (ErrorHandled staNetworkEn) first labels
          last ∧
        NeverTwice staNetworkEn first labels last) ↔
      EveryStep (Step staNetworkEn)
        (fun before label _ => NoErrorWhileReady staNetworkEn before label) first
        labels last := by
  rw [everyStep_congr fun _ _ _ step => errorHandled_iff step]
  refine and_iff_left_of_imp fun noError => ?_
  rintro earlier answer between answer' later before after before' after' split
    toBefore step toBefore' step' toLast - error - - ⟨ready, -⟩
  have rest : Path (Step staNetworkEn) after
      (between ++ .pollReturns answer' :: later) last :=
    toBefore'.append (.cons step' toLast)
  have unready := noError _ _ _ _ _ split toBefore step rest answer rfl error
  omega

/-- While the error lasts and no other thread runs, `poll_loop` returns again and
again and the events stay where they are. -/
theorem error_repeats (polling : before.main = .polling)
    (allowed : answer.Allowed before.counter before.gFds)
    (error : ErrorBranch staNetworkEn before.gFds answer) (n : Nat) :
    Path (Step staNetworkEn) before
      (List.replicate n [.pollReturns answer, .sleepEnds]).flatten before := by
  have returns : ∃ ret, afterPoll staNetworkEn before.gFds answer =
      .returned ret := by
    rcases afterPoll_of_errorBranch error with ret | ret <;> exact ⟨_, ret⟩
  obtain ⟨ret, returns⟩ := returns
  have poll : Step staNetworkEn before (.pollReturns answer)
      { before with main := .returned ret } := by
    have step : step staNetworkEn (.pollReturns answer) before =
        some { before with
          main := afterPoll staNetworkEn before.gFds answer } :=
      if_pos ⟨polling, allowed⟩
    rwa [returns] at step
  have sleep : Step staNetworkEn { before with main := .returned ret }
      (.sleepEnds : Label Thread) before := by
    have same : { before with main := .polling } = before := by
      rw [← polling]
    exact congrArg some same
  have round : Path (Step staNetworkEn) before
      [.pollReturns answer, .sleepEnds] before :=
    .cons poll (.cons sleep (.nil _))
  induction n with
  | zero => exact .nil _
  | succ n ih =>
      rw [List.replicate_succ, List.flatten_cons]
      exact round.append ih

end Calls

section Starving

/-- An event is queued and signalled, and the socket has failed. -/
def starvingLoop : EvtSystem Unit where
  evtList := [⟨evtTimerOut, 0, 0⟩]
  counter := 1
  gFds := ⟨4, 5, by decide⟩
  senders := fun _ => .idle
  main := .polling

/-- What `poll` reports of it. -/
def errorAnswer : PollAnswer := ⟨2, pollIn, pollErr⟩

theorem errorAnswer_errorBranch :
    ErrorBranch true starvingLoop.gFds errorAnswer := by
  refine ⟨by decide, rfl, by decide, .inr (by decide)⟩

/-- The loop after such a call. -/
def erredLoop : EvtSystem Unit := { starvingLoop with main := .returned (-eIo) }

/-- Two calls in a row return with the error, and the event is still there. -/
theorem two_errors_in_a_row :
    Path (Step true) starvingLoop
        [.pollReturns errorAnswer, .sleepEnds, .pollReturns errorAnswer,
          .sleepEnds] starvingLoop ∧
      ¬ NeverTwice true starvingLoop
        [.pollReturns errorAnswer, .sleepEnds, .pollReturns errorAnswer,
          .sleepEnds] starvingLoop := by
  have poll : Step true starvingLoop (.pollReturns errorAnswer) erredLoop := by
    exact (rfl : step true (.pollReturns errorAnswer) starvingLoop =
      some erredLoop)
  have sleep : Path (Step true) erredLoop [.sleepEnds] starvingLoop :=
    path_of_execute rfl
  refine ⟨.cons poll (sleep.append (.cons poll sleep)), fun never => ?_⟩
  refine never [] errorAnswer [.sleepEnds] errorAnswer [.sleepEnds] _ _ _ _ rfl
    (.nil _) poll sleep poll sleep ?_ errorAnswer_errorBranch
    errorAnswer_errorBranch rfl (by decide)
  simp [Label.IsPoll]

end Starving

end EventLoop

end SzpiSta
