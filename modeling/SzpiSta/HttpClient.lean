import Mathlib.Logic.Function.Basic
import Mathlib.Order.Basic
import SzpiSta.ExternalCalls
import SzpiSta.FileCalls

/-!
# Asking the relay over HTTP

The functions of http_client.c.  The request announces the whole array
`recv_buf_ipv4` as room for the response, and the callback writes its terminator
behind the data.  A report that fills the array leaves no place for it.  What the
client puts into the array and when it reports is up to the environment.  Log
lines are left out, and with them the error codes that are only logged.
-/

namespace SzpiSta

namespace HttpClient

open ExternalCalls ExternalCalls.Program

/-- `HTTP_PORT`. -/
def httpPort : Nat := 80

/-- `SERVER_ADDR4` as it stands when the configuration does not set it. -/
def serverAddr4 : CString := cString "192.168.10.111"

/-- `MAX_RECV_BUF_LEN`. -/
def maxRecvBufLen : Nat := 512

/-- The arrays a request can name as its `recv_buf`. -/
inductive RecvBuf where
  | recvBufIpv4
  deriving DecidableEq

/-- `sizeof` of the array. -/
def RecvBuf.size : RecvBuf → Nat
  | .recvBufIpv4 => maxRecvBufLen

inductive HttpMethod where
  | get
  deriving DecidableEq

/-- The fields of `struct http_request` that are set here. -/
structure HttpRequest where
  method : HttpMethod
  url : CString
  host : CString
  protocol : CString
  recvBuf : RecvBuf
  recvBufLen : Nat
  deriving DecidableEq

/-- `struct sockaddr`: the server and the port. -/
structure SockAddr where
  server : CString
  port : Nat
  deriving DecidableEq

/-- The fields of `struct http_response` that the callback uses.  `data` are the
bytes at the front of `recvBuf`, and their number is `data_len`. -/
structure HttpResponse where
  recvBuf : RecvBuf
  data : List UInt8

def HttpResponse.dataLen (rsp : HttpResponse) : Nat := rsp.data.length

/-- The data of one report fits the room the request announced. -/
structure Report (recvBufLen : Nat) where
  data : List UInt8
  fits : data.length ≤ recvBufLen

/-- The reports the client makes, and the value of `http_client_req`. -/
structure ClientAnswer (recvBufLen : Nat) where
  reports : List (Report recvBufLen)
  ret : Int

inductive Call where
  | socket
  | connect (sock : Int) (addr : SockAddr)
  | errno
  | close (sock : Int)
  | httpClientReq (sock : Int) (req : HttpRequest) (timeout : Int)
  | receive (recvBuf : RecvBuf) (data : List UInt8)
  | store (recvBuf : RecvBuf) (index : Nat) (value : UInt8)

/-- The client receives into the array on its own, the callback stores into
it. -/
@[reducible]
def Call.Answer : Call → Type
  | .socket => Int
  | .connect _ _ => Int
  | .errno => Int
  | .close _ => Unit
  | .httpClientReq _ req _ => ClientAnswer req.recvBufLen
  | .receive _ _ => Unit
  | .store _ _ _ => Unit

abbrev ClientProgram := Program Call Call.Answer

abbrev ask (call : Call) : ClientProgram call.Answer := request call

/-- The return code, the socket, and the address of the server. -/
def setupSocket (server : CString) (port : Nat) :
    ClientProgram (Int × Int × SockAddr) := do
  let sock ← ask .socket
  return (0, sock, ⟨server, port⟩)

/-- The callback.  Its value lets the client go on. -/
def responseCb (rsp : HttpResponse) : ClientProgram Int := do
  ask (.store rsp.recvBuf rsp.dataLen 0)
  return 0

/-- The return code and the socket. -/
def connectSocket (server : CString) (port : Nat) :
    ClientProgram (Int × Int) := do
  let (ret, sock, addr) ← setupSocket server port
  if ret < 0 ∨ sock < 0 then
    return (-1, sock)
  let ret ← ask (.connect sock addr)
  if ret < 0 then
    ask (.close sock)
    let errno ← ask .errno
    return (-errno, -1)
  return (ret, sock)

/-- The client fills the array from the front for each report, and hands it to
the callback until one is refused. -/
def deliverReports (req : HttpRequest) :
    List (Report req.recvBufLen) → ClientProgram Unit
  | [] => return ()
  | report :: reports => do
    ask (.receive req.recvBuf report.data)
    let ret ← responseCb ⟨req.recvBuf, report.data⟩
    if ret < 0 then
      return ()
    deliverReports req reports

def httpClientReq (sock : Int) (req : HttpRequest) (timeout : Int) :
    ClientProgram Int := do
  let answer ← ask (.httpClientReq sock req timeout)
  deliverReports req answer.reports
  return answer.ret

/-- `3 * MSEC_PER_SEC`. -/
def requestTimeout : Int := 3 * 1000

def runHttpGetReq (req : HttpRequest) (server : CString) (port : Nat) :
    ClientProgram Int := do
  let (_, sock4) ← connectSocket server port
  if sock4 < 0 then
    return -eConnAborted
  let _ ← httpClientReq sock4 req requestTimeout
  ask (.close sock4)
  return 0

/-- The request to the relay for a URL. -/
def relayRequest (url : CString) : HttpRequest where
  method := .get
  url := url
  host := serverAddr4
  protocol := cString "HTTP/1.1"
  recvBuf := .recvBufIpv4
  recvBufLen := RecvBuf.recvBufIpv4.size

/-- The request of `run_get_SK_v` and of `run_queries`. -/
def getRequest : HttpRequest := relayRequest (cString "/get?value=Relay")

/-- The request of `run_set_SK_v`. -/
def setRequest (v : UInt8) : HttpRequest :=
  relayRequest (if v = 0 then cString "/set?Relay=0" else cString "/set?Relay=1")

def runGetSKV : ClientProgram Int := do
  let _ ← runHttpGetReq getRequest serverAddr4 httpPort
  return 0

def runSetSKV (v : UInt8) : ClientProgram Int := do
  let _ ← runHttpGetReq (setRequest v) serverAddr4 httpPort
  return 0

def runQueries : ClientProgram Int := do
  let (_, sock4) ← connectSocket serverAddr4 httpPort
  if sock4 < 0 then
    return -eConnAborted
  let ret ← httpClientReq sock4 getRequest requestTimeout
  ask (.close sock4)
  return ret

/-- The memory from the start of each array on, and how many bytes at its front
the client received last. -/
structure World where
  memory : RecvBuf → Nat → UInt8
  received : RecvBuf → Nat

/-- Put the data at the front of the array. -/
def World.receive (world : World) (recvBuf : RecvBuf) (data : List UInt8) :
    World where
  memory := Function.update world.memory recvBuf fun index =>
    data.getD index (world.memory recvBuf index)
  received := Function.update world.received recvBuf data.length

/-- C does not check the index. -/
def World.store (world : World) (recvBuf : RecvBuf) (index : Nat)
    (value : UInt8) : World :=
  { world with
    memory := Function.update world.memory recvBuf
      (Function.update (world.memory recvBuf) index value) }

/-- `client` says which reports a request may lead to. -/
def environment
    (client : (req : HttpRequest) → ClientAnswer req.recvBufLen → Prop) :
    Environment Call.Answer World where
  answers
    | before, .httpClientReq _ req _, answer, after =>
        client req answer ∧ after = before
    | before, .receive recvBuf data, _, after =>
        after = before.receive recvBuf data
    | before, .store recvBuf index value, _, after =>
        after = before.store recvBuf index value
    | before, .socket, _, after => after = before
    | before, .connect _ _, _, after => after = before
    | before, .errno, _, after => after = before
    | before, .close _, _, after => after = before

/-- A store lies inside its array and behind what was received. -/
def StoreInside (world : World) : Call → Prop
  | .store recvBuf index _ =>
      index < recvBuf.size ∧ world.received recvBuf ≤ index
  | _ => True

section Terminator

variable {client : (req : HttpRequest) → ClientAnswer req.recvBufLen → Prop}
variable {world : World} {server : CString} {port : Nat} {req : HttpRequest}

@[simp]
theorem receive_received {recvBuf : RecvBuf} {data : List UInt8} :
    (world.receive recvBuf data).received recvBuf = data.length := by
  simp [World.receive]

/-- What a store inside means for the memory: the bytes received stay, and so do
those behind the array. -/
theorem store_keeps {recvBuf : RecvBuf} {index place : Nat} {value : UInt8}
    (inside : StoreInside world (.store recvBuf index value))
    (elsewhere : place < world.received recvBuf ∨ recvBuf.size ≤ place) :
    (world.store recvBuf index value).memory recvBuf place =
      world.memory recvBuf place := by
  obtain ⟨below, behind⟩ := inside
  have apart : place ≠ index := by omega
  simp [World.store, apart]

/-- The callback after the data of a report was received. -/
theorem responseCb_meets_iff {recvBuf : RecvBuf} {data : List UInt8} :
    CallsMeet (environment client) StoreInside (responseCb ⟨recvBuf, data⟩)
        (world.receive recvBuf data) ↔
      data.length < recvBuf.size := by
  unfold responseCb
  simp only [callsMeet_bind, callsMeet_request, callsMeet_pure]
  simp [StoreInside, HttpResponse.dataLen, Ensures]

theorem responseCb_runs {rsp : HttpResponse} :
    Runs (environment client) (responseCb rsp) world
      [⟨.store rsp.recvBuf rsp.dataLen 0, ()⟩] 0
      (world.store rsp.recvBuf rsp.dataLen 0) := by
  unfold responseCb
  apply Runs.call
  · exact rfl
  exact .done _ _

theorem responseCb_ensures {rsp : HttpResponse} :
    Ensures (environment client) (responseCb rsp) world
      fun _ ret _ => ret = 0 := by
  unfold responseCb
  simp only [ensures_bind, ensures_request, ensures_pure]
  exact fun _ _ _ => trivial

/-- Report by report. -/
theorem deliverReports_meets_iff (reports : List (Report req.recvBufLen)) :
    CallsMeet (environment client) StoreInside (deliverReports req reports)
        world ↔
      ∀ report ∈ reports, report.data.length < req.recvBuf.size := by
  induction reports generalizing world with
  | nil => simp [deliverReports]
  | cons report reports ih =>
      rw [deliverReports, List.forall_mem_cons, callsMeet_bind,
        callsMeet_request, ensures_request]
      constructor
      · rintro ⟨-, afterReceive⟩
        have rest := callsMeet_bind.mp (afterReceive () _ rfl)
        refine ⟨responseCb_meets_iff.mp rest.1, ?_⟩
        have others := rest.2 _ _ _ responseCb_runs
        dsimp only at others
        rw [if_neg (by decide)] at others
        exact ih.mp others
      · rintro ⟨room, others⟩
        refine ⟨trivial, ?_⟩
        rintro _ _ rfl
        refine callsMeet_bind.mpr ⟨responseCb_meets_iff.mpr room, ?_⟩
        refine responseCb_ensures.mono ?_
        rintro _ _ after rfl
        rw [if_neg (by decide)]
        exact ih.mpr others

/-- Every report leaves a place behind its data. -/
def LeavesRoom
    (client : (req : HttpRequest) → ClientAnswer req.recvBufLen → Prop)
    (req : HttpRequest) : Prop :=
  ∀ answer, client req answer → ∀ report ∈ answer.reports,
    report.data.length < req.recvBuf.size

theorem httpClientReq_meets_iff {sock timeout : Int} :
    CallsMeet (environment client) StoreInside (httpClientReq sock req timeout)
        world ↔
      LeavesRoom client req := by
  unfold httpClientReq
  rw [callsMeet_bind, callsMeet_request, ensures_request]
  constructor
  · rintro ⟨-, afterRequest⟩ answer answered
    have rest := afterRequest answer world ⟨answered, rfl⟩
    exact (deliverReports_meets_iff _).mp (callsMeet_bind.mp rest).1
  · rintro room
    refine ⟨trivial, ?_⟩
    rintro answer after ⟨answered, rfl⟩
    rw [callsMeet_bind, deliverReports_meets_iff]
    exact ⟨room answer answered, fun _ _ _ _ => callsMeet_pure⟩

/-- The calls that store nothing. -/
def StoresNothing : Call → Prop
  | .store _ _ _ => False
  | _ => True

theorem StoresNothing.inside (world : World) (call : Call)
    (storesNothing : StoresNothing call) : StoreInside world call := by
  cases call <;> trivial

theorem connectSocket_issues :
    Issues StoresNothing (connectSocket server port) := by
  unfold connectSocket setupSocket
  apply Issues.bind
  · exact (issues_request.mpr trivial).bind fun _ => issues_pure
  rintro ⟨ret, sock, addr⟩
  dsimp only
  split
  · exact issues_pure
  apply (issues_request.mpr trivial).bind
  intro connected
  split
  · apply (issues_request.mpr trivial).bind
    intro _
    exact (issues_request.mpr trivial).bind fun _ => issues_pure
  · exact issues_pure

/-- A socket that connects. -/
theorem connectSocket_runs :
    Runs (environment client) (connectSocket server port) world
      [⟨.socket, (3 : Int)⟩, ⟨.connect 3 ⟨server, port⟩, (0 : Int)⟩] (0, 3)
      world := by
  unfold connectSocket setupSocket
  apply Runs.call
  · exact rfl
  apply Runs.call
  · exact rfl
  exact .done _ _

/-- What follows the connection: a request, and then nothing that stores. -/
theorem connected_meets_iff
    {next : Int × Int → ClientProgram Int} {after : Int → Int → ClientProgram Int}
    (unconnected : ∀ ret sock, sock < 0 → Issues StoresNothing (next (ret, sock)))
    (connected : ∀ ret sock, ¬ sock < 0 → next (ret, sock) =
      httpClientReq sock req requestTimeout >>= after sock)
    (afterIssues : ∀ sock ret, Issues StoresNothing (after sock ret)) :
    CallsMeet (environment client) StoreInside
        (connectSocket server port >>= next) world ↔
      LeavesRoom client req := by
  rw [callsMeet_bind]
  constructor
  · rintro ⟨-, meets⟩
    have requested := meets _ _ _ connectSocket_runs
    dsimp only at requested
    rw [connected 0 3 (by decide), callsMeet_bind] at requested
    exact httpClientReq_meets_iff.mp requested.1
  · intro room
    refine ⟨connectSocket_issues.callsMeet StoresNothing.inside, ?_⟩
    rintro trace ⟨ret, sock⟩ world' -
    by_cases noSocket : sock < 0
    · exact (unconnected ret sock noSocket).callsMeet StoresNothing.inside
    · rw [connected ret sock noSocket, callsMeet_bind]
      refine ⟨httpClientReq_meets_iff.mpr room, fun _ _ _ _ => ?_⟩
      exact (afterIssues _ _).callsMeet StoresNothing.inside

/-- The socket is closed, and a value returned. -/
theorem closes_issues {sock value : Int} :
    Issues StoresNothing (do ask (.close sock); return value) :=
  (issues_request.mpr trivial).bind fun _ => issues_pure

theorem runHttpGetReq_meets_iff :
    CallsMeet (environment client) StoreInside (runHttpGetReq req server port)
        world ↔
      LeavesRoom client req := by
  apply connected_meets_iff
  · intro ret sock noSocket
    dsimp only
    rw [if_pos noSocket]
    exact issues_pure
  · intro ret sock hasSocket
    dsimp only
    rw [if_neg hasSocket]
  · exact fun _ _ => closes_issues

theorem runQueries_meets_iff :
    CallsMeet (environment client) StoreInside runQueries world ↔
      LeavesRoom client getRequest := by
  apply connected_meets_iff
  · intro ret sock noSocket
    dsimp only
    rw [if_pos noSocket]
    exact issues_pure
  · intro ret sock hasSocket
    dsimp only
    rw [if_neg hasSocket]
  · exact fun _ _ => closes_issues

/-- Whatever the relay answers and however the client reports it, every
terminator lies inside the array and behind the data, exactly if no report fills
the array. -/
theorem terminator_inside_iff
    (client : (req : HttpRequest) → ClientAnswer req.recvBufLen → Prop)
    (world : World) :
    (CallsMeet (environment client) StoreInside runGetSKV world ↔
        LeavesRoom client getRequest) ∧
      (∀ v, CallsMeet (environment client) StoreInside (runSetSKV v) world ↔
        LeavesRoom client (setRequest v)) ∧
      (CallsMeet (environment client) StoreInside runQueries world ↔
        LeavesRoom client getRequest) := by
  have ignoresValue (program : ClientProgram Int) :
      CallsMeet (environment client) StoreInside
          (do let _ ← program; return (0 : Int)) world ↔
        CallsMeet (environment client) StoreInside program world := by
    rw [callsMeet_bind]
    exact and_iff_left fun _ _ _ _ => callsMeet_pure
  refine ⟨?_, fun v => ?_, runQueries_meets_iff⟩
  · unfold runGetSKV
    exact (ignoresValue _).trans runHttpGetReq_meets_iff
  · unfold runSetSKV
    exact (ignoresValue _).trans runHttpGetReq_meets_iff

/-- The client reports 512 bytes at once. -/
def reportsFullBuffer (req : HttpRequest)
    (answer : ClientAnswer req.recvBufLen) : Prop :=
  answer.reports.map Report.data = [List.replicate 512 65]

/-- The terminator is stored behind the array. -/
theorem full_buffer_terminated_outside :
    ¬ CallsMeet (environment reportsFullBuffer) StoreInside runQueries
      ⟨fun _ _ => 0, fun _ => 0⟩ := by
  intro inside
  have room := runQueries_meets_iff.mp inside
  have length : (List.replicate 512 (65 : UInt8)).length = 512 :=
    List.length_replicate
  have below := room ⟨[⟨List.replicate 512 65, length.le⟩], 0⟩ rfl _
    List.mem_cons_self
  exact absurd (length.symm.trans_lt below) (by decide)

end Terminator

end HttpClient

end SzpiSta
