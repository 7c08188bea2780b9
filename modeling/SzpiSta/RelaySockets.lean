import SzpiSta.HeldResources
import SzpiSta.HttpClient

/-!
# What a request to the relay leaves behind

Every way through the functions of http_client.c closes the socket that it has
opened, and closes it once.  The relay is asked exactly if the connection stands,
and then once and with the request of the caller; the value of `run_set_SK_v`
and of `run_get_SK_v` does not tell.
-/

namespace SzpiSta

namespace HttpClient

open ExternalCalls ExternalCalls.Program HeldResources

/-- What an answered call does with the sockets, named by their descriptors. -/
@[simp]
def Event.uses : Event Call.Answer → List (Use Int)
  | ⟨.socket, sock⟩ => if sock < 0 then [] else [.acquire sock]
  | ⟨.connect sock _, _⟩ => [.use sock]
  | ⟨.httpClientReq sock _ _, _⟩ => [.use sock]
  | ⟨.close sock, _⟩ => [.release sock]
  | ⟨.errno, _⟩ | ⟨.receive _ _, _⟩ | ⟨.store _ _ _, _⟩ => []

/-- The request an answered call has sent. -/
def Event.requested : Event Call.Answer → List HttpRequest
  | ⟨.httpClientReq _ req _, _⟩ => [req]
  | _ => []

/-- The requests sent in a run, in order. -/
def requested (trace : List (Event Call.Answer)) : List HttpRequest :=
  trace.flatMap Event.requested

/-- The answered call is a connection to the server that stands. -/
def Event.Connects (server : CString) (port : Nat) : Event Call.Answer → Prop
  | ⟨.connect _ addr, ret⟩ => addr = ⟨server, port⟩ ∧ 0 ≤ ret
  | _ => False

/-- The server was reached. -/
def Reached (server : CString) (port : Nat) (trace : List (Event Call.Answer)) :
    Prop :=
  ∃ event ∈ trace, Event.Connects server port event

/-- The calls that send no request. -/
def Call.Local : Call → Prop
  | .httpClientReq _ _ _ => False
  | _ => True

/-- What `run_http_get_req` and `run_queries` have in common; `value` is what
becomes of the value of the client. -/
def askServer (req : HttpRequest) (server : CString) (port : Nat)
    (value : Int → Int) : ClientProgram Int := do
  let (_, sock4) ← connectSocket server port
  if sock4 < 0 then
    return -eConnAborted
  let ret ← httpClientReq sock4 req requestTimeout
  ask (.close sock4)
  return value ret

theorem runHttpGetReq_eq (req : HttpRequest) (server : CString) (port : Nat) :
    runHttpGetReq req server port = askServer req server port fun _ => 0 :=
  rfl

theorem runQueries_eq :
    runQueries = askServer getRequest serverAddr4 httpPort id :=
  rfl

section Sockets

variable {World : Type} {env : Environment Call.Answer World} {world : World}
variable {server : CString} {port : Nat} {req : HttpRequest} {held : List Int}
variable {value : Int → Int}
variable {trace first rest : List (Event Call.Answer)}

theorem requested_append :
    requested (first ++ rest) = requested first ++ requested rest :=
  List.flatMap_append

theorem reached_append_iff :
    Reached server port (first ++ rest) ↔
      Reached server port first ∨ Reached server port rest := by
  simp only [Reached, List.mem_append, or_and_right, exists_or]

theorem requested_of_local (issued : ∀ event ∈ trace, event.call.Local) :
    requested trace = [] := by
  apply List.flatMap_eq_nil_iff.mpr
  rintro ⟨call, answer⟩ member
  have isLocal := issued _ member
  cases call with
  | httpClientReq => exact isLocal.elim
  | connect | socket | errno | close | receive | store => rfl

theorem deliverReports_local (reports : List (Report req.recvBufLen)) :
    Issues Call.Local (deliverReports req reports) := by
  induction reports with
  | nil => exact issues_pure
  | cons report reports ih =>
      rw [deliverReports]
      apply (issues_request.mpr trivial).bind
      intro _
      apply Issues.bind
      · exact (issues_request.mpr trivial).bind fun _ => issues_pure
      intro ret
      split
      · exact issues_pure
      · exact ih

theorem deliverReports_accounts (reports : List (Report req.recvBufLen)) :
    Accounts Event.uses (fun _ left => left = held) (deliverReports req reports)
      held := by
  induction reports with
  | nil => exact rfl
  | cons report reports ih =>
      rw [deliverReports]
      apply accounts_other_bind (fun _ => rfl)
      intro _
      have answers : Accounts Event.uses (fun _ left => left = held)
          (responseCb ⟨req.recvBuf, report.data⟩) held :=
        accounts_other_bind (fun _ => rfl) fun _ => rfl
      apply answers.bind
      rintro ret _ rfl
      split
      · exact rfl
      · exact ih

/-- The socket is held exactly if there is one. -/
def HoldsSocket (sock : Int) (left : List Int) : Prop :=
  left = if sock < 0 then [] else [sock]

theorem connectSocket_accounts :
    Accounts Event.uses (fun result left => HoldsSocket result.2 left)
      (connectSocket server port) [] := by
  unfold connectSocket setupSocket
  apply accounts_request_bind
  intro (sock : Int)
  by_cases noSocket : sock < 0
  · refine ⟨[], by simp [noSocket], ?_⟩
    simp [noSocket, HoldsSocket]
  · refine ⟨[sock], by simp [noSocket], ?_⟩
    have valid : ¬ ((0 : Int) < 0 ∨ sock < 0) := by simpa using noSocket
    dsimp only
    rw [if_neg valid]
    apply accounts_request_bind
    intro (ret : Int)
    refine ⟨[sock], by simp, ?_⟩
    split
    · apply accounts_request_bind
      intro _
      refine ⟨[], by simp, ?_⟩
      exact accounts_other_bind (fun _ => rfl) fun _ => rfl
    · rw [accounts_pure, HoldsSocket, if_neg noSocket]

theorem httpClientReq_accounts {sock timeout : Int} :
    Accounts Event.uses (fun _ left => left = [sock])
      (httpClientReq sock req timeout) [sock] := by
  apply accounts_request_bind
  intro answer
  refine ⟨[sock], by simp, ?_⟩
  exact (deliverReports_accounts answer.reports).bind fun _ _ same => same

theorem askServer_accounts :
    Accounts Event.uses (fun _ left => left = [])
      (askServer req server port value) [] := by
  apply connectSocket_accounts.bind
  rintro ⟨ret, sock⟩ left holds
  dsimp only at holds ⊢
  by_cases noSocket : sock < 0
  · rw [if_pos noSocket]
    rwa [HoldsSocket, if_pos noSocket] at holds
  · rw [if_neg noSocket]
    rw [HoldsSocket, if_neg noSocket] at holds
    subst holds
    apply httpClientReq_accounts.bind
    rintro answer _ rfl
    exact accounts_request_bind fun _ => ⟨[], by simp, rfl⟩

/-- There is a socket exactly if the server was reached, and no request yet. -/
theorem connectSocket_ensures :
    Ensures env (connectSocket server port) world fun trace result _ =>
      requested trace = [] ∧ (Reached server port trace ↔ ¬ result.2 < 0) := by
  unfold connectSocket setupSocket
  simp only [ensures_bind, ensures_request, ensures_pure]
  intro sock _ _
  have valid : ¬ (0 : Int) < 0 := by decide
  simp only [valid, false_or]
  split
  case isTrue noSocket =>
    refine ensures_pure.mpr ⟨rfl, ?_⟩
    simp [Reached, Event.Connects, noSocket]
  case isFalse hasSocket =>
  simp only [ensures_bind, ensures_request]
  intro ret _ _
  split
  case isTrue failed =>
    simp only [ensures_bind, ensures_request, ensures_pure]
    intro _ _ _ _ _ _
    refine ⟨rfl, ?_⟩
    simp [Reached, Event.Connects, failed]
  case isFalse connected =>
    refine ensures_pure.mpr ⟨rfl, ?_⟩
    simp [Reached, Event.Connects, hasSocket, Int.not_lt.mp connected]

/-- Receiving and closing send nothing. -/
theorem httpClientReq_ensures {sock timeout : Int} :
    Ensures env (httpClientReq sock req timeout) world fun trace _ _ =>
      requested trace = [req] := by
  unfold httpClientReq
  simp only [ensures_bind, ensures_request]
  intro answer _ _ reports _ _ delivered
  have silent :=
    requested_of_local (delivered.issued (deliverReports_local _))
  refine ensures_pure.mpr ?_
  rw [requested_append, requested_append, silent]
  rfl

/-- A server that was reached is asked once, and no other. -/
theorem askServer_ensures :
    Ensures env (askServer req server port value) world fun trace ret _ =>
      (Reached server port trace → requested trace = [req]) ∧
        (¬ Reached server port trace →
          requested trace = [] ∧ ret = -eConnAborted) := by
  unfold askServer
  rw [ensures_bind]
  refine connectSocket_ensures.mono ?_
  rintro trace ⟨ret, sock⟩ _ ⟨unasked, reached⟩
  dsimp only at reached ⊢
  split
  case isTrue noSocket =>
    refine ensures_pure.mpr ?_
    rw [List.append_nil]
    exact ⟨fun isReached => (reached.mp isReached noSocket).elim,
      fun _ => ⟨unasked, rfl⟩⟩
  case isFalse hasSocket =>
  have isReached := reached.mpr hasSocket
  rw [ensures_bind]
  refine httpClientReq_ensures.mono ?_
  intro sent answer _ isSent
  simp only [ensures_bind, ensures_request, ensures_pure]
  intro _ _ _
  constructor
  · intro _
    rw [requested_append, requested_append, requested_append, unasked, isSent]
    rfl
  · intro unreached
    exact (unreached (reached_append_iff.mpr (.inl isReached))).elim

/-- What is true of a request to the relay, whatever the outcome. -/
structure AskedOnce (req : HttpRequest) (trace : List (Event Call.Answer)) :
    Prop where
  sockets : ReleasedOnce (trace.flatMap Event.uses)
  reached : Reached serverAddr4 httpPort trace → requested trace = [req]
  unreached : ¬ Reached serverAddr4 httpPort trace → requested trace = []

theorem askServer_askedOnce {after : World} {ret : Int}
    (runs : Runs env (askServer req serverAddr4 httpPort value) world trace ret
      after) :
    AskedOnce req trace ∧
      (¬ Reached serverAddr4 httpPort trace → ret = -eConnAborted) := by
  obtain ⟨left, allowed, rfl⟩ := askServer_accounts.runs runs
  obtain ⟨reached, unreached⟩ := askServer_ensures _ _ _ runs
  exact ⟨⟨releasedOnce_of_account allowed, reached,
    fun isNot => (unreached isNot).1⟩, fun isNot => (unreached isNot).2⟩

/-- A caller that drops the value. -/
theorem askedOnce_of_ignoring {after : World} {ret : Int}
    (runs : Runs env (do
      let _ ← runHttpGetReq req serverAddr4 httpPort
      return (0 : Int)) world trace ret after) :
    AskedOnce req trace ∧ ret = 0 := by
  obtain ⟨asking, rest, value, middle, rfl, asks, returns⟩ :=
    runs_bind_iff.mp runs
  obtain ⟨rfl, rfl, -⟩ := runs_done_iff.mp returns
  rw [runHttpGetReq_eq] at asks
  rw [List.append_nil]
  exact ⟨(askServer_askedOnce asks).1, rfl⟩

end Sockets

end HttpClient

end SzpiSta
