import SzpiSta.EventLoop
import SzpiSta.ExternalCalls

/-!
# Receiving from a connection that is closed

`wscli_recv` of wscli.c asks `errno` whether to try again, also when `recv`
returned zero.  An orderly close leaves `errno` as it was, so after a timeout, or
after one in an earlier call, the function never finds out about the close.
-/

namespace SzpiSta

namespace WscliRecv

open ExternalCalls ExternalCalls.Program EventLoop

def eTimedOut : Int := 116

/-- `errno` asks for another try. -/
def Retries (errno : Int) : Prop := errno = eAgain ∨ errno = eTimedOut

instance (errno : Int) : Decidable (Retries errno) :=
  inferInstanceAs (Decidable (_ ∨ _))

inductive Call where
  | recv (sock : Int) (offset len : Int)
  | errno
  | kSleep (ms : Nat)
  | logClosed (ret errno : Int)

@[reducible]
def Call.Answer : Call → Type
  | .recv _ _ _ => Int
  | .errno => Int
  | .kSleep _ => Unit
  | .logClosed _ _ => Unit

abbrev RecvProgram := Program Call Call.Answer

abbrev ask (call : Call) : RecvProgram call.Answer := request call

/-- One turn of the loop, which goes round with `read_pos`. -/
def recvTurn (sock bufLen readPos : Int) :
    RecvProgram (LoopStep Int Int) := do
  let ret ← ask (.recv sock readPos (bufLen - readPos))
  if ret ≤ 0 then
    let errno ← ask .errno
    if errno = eAgain ∨ errno = eTimedOut then
      ask (.kSleep 50)
      return .again readPos
    ask (.logClosed ret errno)
    return .leave (-1)
  return .leave (readPos + ret)

def wscliRecv (fuel : Nat) (sock bufLen : Int) : RecvProgram Int :=
  loop (recvTurn sock bufLen) fuel 0

/-- A failure after which `wscli_recv` tries again. -/
inductive TryAgain where
  | again
  | timedOut
  deriving DecidableEq

def TryAgain.errno : TryAgain → Int
  | .again => eAgain
  | .timedOut => eTimedOut

/-- How the waiting ends: with some bytes, with an orderly close, or with another
failure. -/
inductive Ending where
  | received (count : Int) (positive : 0 < count)
  | closed
  | failed (errno : Int) (final : ¬ Retries errno)

/-- `errno`, and what `recv` will answer: some failures first, and then always
the same. -/
structure Peer where
  errno : Int
  failures : List TryAgain
  ending : Ending

/-- A `recv`: its value and the connection after it.  Only a failure sets
`errno`. -/
def Peer.recv (peer : Peer) : Int × Peer :=
  match peer.failures, peer.ending with
  | failure :: failures, _ => (-1, { peer with errno := failure.errno, failures })
  | [], .received count _ => (count, peer)
  | [], .closed => (0, peer)
  | [], .failed errno _ => (-1, { peer with errno })

/-- The calls of `wscli_recv`. -/
def connection : Environment Call.Answer Peer where
  answers before call answer after :=
    match call with
    | .recv _ _ _ => (answer, after) = before.recv
    | .errno => answer = before.errno ∧ after = before
    | .kSleep _ => after = before
    | .logClosed _ _ => after = before

/-- What `wscli_recv` should return. -/
def Ending.expected : Ending → Int
  | .received count _ => count
  | .closed => -1
  | .failed _ _ => -1

def Returns (sock bufLen : Int) (peer : Peer) (value : Int) : Prop :=
  (∃ fuel, Completes connection (wscliRecv fuel sock bufLen) peer) ∧
    ∀ fuel, Ensures connection (wscliRecv fuel sock bufLen) peer
      fun _ result _ => result = value

/-- What a turn decides after the value of its `recv`. -/
def turnStep (readPos ret errno : Int) : LoopStep Int Int :=
  if ret ≤ 0 then
    if Retries errno then .again readPos else .leave (-1)
  else .leave (readPos + ret)

/-- Whatever `recv` brings, `errno` can be read, and the other calls change
nothing. -/
structure ReadsErrno {World : Type} (env : Environment Call.Answer World)
    (errno : World → Int) : Prop where
  errno : ∀ world answer after, env.answers world .errno answer after ↔
    answer = errno world ∧ after = world
  kSleep : ∀ world ms answer after,
    env.answers world (.kSleep ms) answer after ↔ after = world
  logClosed : ∀ world ret code answer after,
    env.answers world (.logClosed ret code) answer after ↔ after = world

section Turn

variable {World : Type} {env : Environment Call.Answer World}
variable {errno : World → Int} {world : World} {sock bufLen readPos : Int}

theorem ReadsErrno.ensures_recvTurn (reads : ReadsErrno env errno) :
    Ensures env (recvTurn sock bufLen readPos) world
      fun _ step after => ∃ ret : Int,
        env.answers world (.recv sock readPos (bufLen - readPos)) ret after ∧
          step = turnStep readPos ret (errno after) := by
  unfold recvTurn
  refine ensures_bind.mpr (ensures_request.mpr ?_)
  intro ret after answered
  by_cases failed : ret ≤ 0
  · rw [if_pos failed]
    refine ensures_bind.mpr (ensures_request.mpr ?_)
    intro code middle asked
    obtain ⟨rfl, rfl⟩ := (reads.errno _ _ _).mp asked
    by_cases retries : Retries (errno middle)
    · have again : errno middle = eAgain ∨ errno middle = eTimedOut := retries
      rw [if_pos again]
      refine ensures_bind.mpr (ensures_request.mpr ?_)
      intro _ last slept
      obtain rfl := (reads.kSleep _ _ _ _).mp slept
      refine ensures_pure.mpr ⟨ret, answered, ?_⟩
      rw [turnStep, if_pos failed, if_pos retries]
    · have final : ¬ (errno middle = eAgain ∨ errno middle = eTimedOut) :=
        retries
      rw [if_neg final]
      refine ensures_bind.mpr (ensures_request.mpr ?_)
      intro _ last logged
      obtain rfl := (reads.logClosed _ _ _ _ _).mp logged
      refine ensures_pure.mpr ⟨ret, answered, ?_⟩
      rw [turnStep, if_pos failed, if_neg retries]
  · rw [if_neg failed]
    refine ensures_pure.mpr ⟨ret, answered, ?_⟩
    rw [turnStep, if_neg failed]

/-- After every value of `recv` the turn has a run. -/
theorem ReadsErrno.runs_recvTurn (reads : ReadsErrno env errno) {ret : Int}
    {after : World}
    (answered : env.answers world (.recv sock readPos (bufLen - readPos)) ret
      after) :
    ∃ trace, Runs env (recvTurn sock bufLen readPos) world trace
      (turnStep readPos ret (errno after)) after := by
  have asked := (reads.errno after (errno after) after).mpr ⟨rfl, rfl⟩
  unfold recvTurn turnStep
  by_cases failed : ret ≤ 0
  · by_cases retries : Retries (errno after)
    · have again : errno after = eAgain ∨ errno after = eTimedOut := retries
      have slept := (reads.kSleep after 50 () after).mpr rfl
      rw [if_pos failed, if_pos retries]
      apply Exists.intro
      apply Runs.bind (.request _ answered)
      rw [if_pos failed]
      apply Runs.bind (.request _ asked)
      rw [if_pos again]
      exact Runs.bind (.request _ slept) (.done _ _)
    · have final : ¬ (errno after = eAgain ∨ errno after = eTimedOut) :=
        retries
      have logged := (reads.logClosed after ret (errno after) () after).mpr rfl
      rw [if_pos failed, if_neg retries]
      apply Exists.intro
      apply Runs.bind (.request _ answered)
      rw [if_pos failed]
      apply Runs.bind (.request _ asked)
      rw [if_neg final]
      exact Runs.bind (.request _ logged) (.done _ _)
  · rw [if_neg failed]
    apply Exists.intro
    apply Runs.bind (.request _ answered)
    rw [if_neg failed]
    exact .done _ _

theorem completes_recvTurn :
    Completes env (recvTurn sock bufLen readPos) world := by
  unfold recvTurn
  refine completes_request_bind fun ret _ _ => ?_
  split
  · refine completes_request_bind fun errno _ _ => ?_
    split
    · exact completes_request_bind fun _ _ _ => completes_pure
    · exact completes_request_bind fun _ _ _ => completes_pure
  · exact completes_pure

variable {peer : Peer}

theorem connection_readsErrno : ReadsErrno connection Peer.errno :=
  ⟨fun _ _ _ => Iff.rfl, fun _ _ _ _ => Iff.rfl, fun _ _ _ _ _ => Iff.rfl⟩

theorem ensures_recvTurn :
    Ensures connection (recvTurn sock bufLen readPos) peer
      fun _ step after => after = peer.recv.2 ∧
        step = turnStep readPos peer.recv.1 peer.recv.2.errno := by
  refine connection_readsErrno.ensures_recvTurn.mono ?_
  rintro - step after ⟨ret, answered, rfl⟩
  obtain ⟨rfl, rfl⟩ := Prod.ext_iff.mp answered
  exact ⟨rfl, rfl⟩

/-- A turn has a run, and it is the one `turnStep` says. -/
theorem runs_recvTurn : ∃ trace,
    Runs connection (recvTurn sock bufLen readPos) peer trace
      (turnStep readPos peer.recv.1 peer.recv.2.errno) peer.recv.2 :=
  connection_readsErrno.runs_recvTurn rfl

end Turn

section Loop

variable {sock bufLen : Int} {peer : Peer}

/-- The close will be noticed. -/
def Peer.Noticed (peer : Peer) : Prop :=
  match peer.ending with
  | .closed => peer.failures = [] ∧ ¬ Retries peer.errno
  | _ => True

theorem TryAgain.retries (failure : TryAgain) : Retries failure.errno := by
  cases failure
  · exact .inl rfl
  · exact .inr rfl

/-- After the failures, a noticed ending makes the turn leave with what is
expected. -/
theorem turnStep_of_ended (noticed : peer.Noticed) (ended : peer.failures = []) :
    turnStep 0 peer.recv.1 peer.recv.2.errno = .leave peer.ending.expected := by
  rcases peer with ⟨errno, failures, ending⟩
  obtain rfl : failures = [] := ended
  cases ending with
  | received count positive =>
      simp [Peer.recv, turnStep, Ending.expected, Int.not_le.mpr positive]
  | closed =>
      have final : ¬ Retries errno := noticed.2
      simp [Peer.recv, turnStep, Ending.expected, final]
  | failed errno final => simp [Peer.recv, turnStep, Ending.expected, final]

theorem turnStep_of_failure {failure : TryAgain} {failures : List TryAgain}
    (next : peer.failures = failure :: failures) :
    turnStep 0 peer.recv.1 peer.recv.2.errno = .again 0 ∧
      peer.recv.2 = { peer with errno := failure.errno, failures } := by
  have received :
      peer.recv = (-1, { peer with errno := failure.errno, failures }) := by
    rw [Peer.recv, next]
  rw [received]
  refine ⟨?_, rfl⟩
  have failed : (-1 : Int) ≤ 0 := by decide
  rw [turnStep, if_pos failed, if_pos failure.retries]

/-- Every turn either uses a failure up or leaves as expected. -/
theorem noticed_turn (noticed : peer.Noticed) :
    Ensures connection (recvTurn sock bufLen 0) peer fun _ step after =>
      (step = .leave peer.ending.expected) ∨
        (step = .again 0 ∧ after.Noticed ∧ after.ending = peer.ending ∧
          after.failures.length < peer.failures.length) := by
  refine ensures_recvTurn.mono ?_
  rintro - step _ ⟨rfl, rfl⟩
  cases next : peer.failures with
  | nil => exact .inl (turnStep_of_ended noticed next)
  | cons failure failures =>
      obtain ⟨again, after⟩ := turnStep_of_failure next
      refine .inr ⟨again, ?_, ?_, ?_⟩
      · rw [after]
        unfold Peer.Noticed at noticed ⊢
        cases ending : peer.ending with
        | closed =>
            rw [ending] at noticed
            rw [noticed.1] at next
            cases next
        | received | failed => trivial
      · rw [after]
      · rw [after]
        exact Nat.lt_succ_self _

theorem returns_of_noticed (noticed : peer.Noticed) :
    Returns sock bufLen peer peer.ending.expected := by
  constructor
  · refine ⟨peer.failures.length + 1, ?_⟩
    refine completes_loop (fun readPos peer => readPos = 0 ∧ peer.Noticed)
      (fun _ peer => peer.failures.length) (fun _ _ _ => completes_recvTurn)
      ?_ ⟨rfl, noticed⟩ (Nat.lt_succ_self _)
    rintro _ peer ⟨rfl, noticed⟩
    refine (noticed_turn noticed).mono ?_
    rintro - step after (rfl | ⟨rfl, still, -, fewer⟩) next same
    · cases same
    · cases same
      exact ⟨⟨rfl, still⟩, fewer⟩
  · intro fuel
    refine ensures_loop
      (fun readPos _ after => readPos = 0 ∧ after.Noticed ∧
        after.ending = peer.ending) ?_ fuel ⟨rfl, noticed, rfl⟩
    rintro _ - before ⟨rfl, noticed, same⟩
    refine (noticed_turn noticed).mono ?_
    rintro - step after (rfl | ⟨rfl, still, ending, -⟩)
    · exact congrArg Ending.expected same
    · exact ⟨rfl, still, ending.trans same⟩

/-- A close that is not noticed: every turn goes round. -/
theorem unnoticed_turn (unnoticed : ¬ peer.Noticed) :
    turnStep 0 peer.recv.1 peer.recv.2.errno = .again 0 ∧
      ¬ peer.recv.2.Noticed := by
  cases next : peer.failures with
  | nil =>
      rcases peer with ⟨errno, failures, ending⟩
      obtain rfl : failures = [] := next
      cases ending with
      | received | failed => exact (unnoticed trivial).elim
      | closed =>
          have retries : Retries errno := by
            by_contra final
            exact unnoticed ⟨rfl, final⟩
          exact ⟨by simp [Peer.recv, turnStep, retries], unnoticed⟩
  | cons failure failures =>
      obtain ⟨again, after⟩ := turnStep_of_failure next
      refine ⟨again, fun noticed => ?_⟩
      rw [after] at noticed
      unfold Peer.Noticed at noticed unnoticed
      cases ending : peer.ending with
      | closed =>
          rw [ending] at noticed
          exact noticed.2 failure.retries
      | received | failed =>
          rw [ending] at unnoticed
          exact unnoticed trivial

theorem not_returns_of_unnoticed (unnoticed : ¬ peer.Noticed) (fuel : Nat) :
    ¬ Completes connection (wscliRecv fuel sock bufLen) peer := by
  refine not_completes_loop (fun readPos peer => readPos = 0 ∧ ¬ peer.Noticed)
    ?_ fuel ⟨rfl, unnoticed⟩
  rintro _ peer ⟨rfl, unnoticed⟩
  obtain ⟨again, still⟩ := unnoticed_turn unnoticed
  obtain ⟨trace, runs⟩ : ∃ trace, Runs connection (recvTurn sock bufLen 0) peer
      trace (turnStep 0 peer.recv.1 peer.recv.2.errno) peer.recv.2 :=
    runs_recvTurn
  rw [again] at runs
  exact ⟨trace, 0, _, runs, rfl, still⟩

end Loop

/-- However the waiting goes: `wscli_recv` returns what it should exactly if the
ending is no close, or one that comes first and finds `errno` without a wish to
try again. -/
theorem recv_returns_iff (sock bufLen : Int) (peer : Peer) :
    Returns sock bufLen peer peer.ending.expected ↔
      (peer.ending = .closed →
        peer.failures = [] ∧ ¬ Retries peer.errno) := by
  have noticed_iff : peer.Noticed ↔ (peer.ending = .closed →
      peer.failures = [] ∧ ¬ Retries peer.errno) := by
    unfold Peer.Noticed
    cases peer.ending <;> simp
  rw [← noticed_iff]
  constructor
  · rintro ⟨⟨fuel, completes⟩, -⟩
    by_contra unnoticed
    exact not_returns_of_unnoticed unnoticed fuel completes
  · exact returns_of_noticed

/-- One timeout, and then the peer closes: no number of turns is enough. -/
theorem recv_spins_after_timeout :
    ¬ Returns 3 512 ⟨0, [.timedOut], .closed⟩ (Ending.closed.expected) := by
  rintro ⟨⟨fuel, completes⟩, -⟩
  refine not_returns_of_unnoticed ?_ fuel completes
  rintro ⟨⟨⟩, -⟩

end WscliRecv

end SzpiSta
