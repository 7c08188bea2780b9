import SzpiSta.RelayCycle
import SzpiSta.RelaySockets

/-!
# What reaches the relay

The looper drops the value of `run_set_SK_v`, so it does not find out whether a
request got through.  The relay is asked by those calls whose connection stands,
in order and once each.  If the last of the calls got through, the relay was last
asked for the position that the thread counts on, whatever became of the calls
before.
-/

namespace SzpiSta

namespace AutoReboot

open TransitionPaths ExternalCalls ExternalCalls.Program
open HttpClient (HttpRequest Reached requested runSetSKV serverAddr4 httpPort setRequest)

/-- A request of the looper, and the calls of the HTTP client it leads to. -/
structure Exchange where
  request : LooperAction
  trace : List (Event HttpClient.Call.Answer)

/-- `run_set_SK_v` is called, in whatever state the network is by then.
Advertising does not use the client. -/
def Exchange.CarriedOut {World : Type}
    (env : Environment HttpClient.Call.Answer World) (exchange : Exchange) :
    Prop :=
  match exchange.request with
  | .runSetSkV v => ∃ before ret after,
      Runs env (runSetSKV v) before exchange.trace ret after
  | .tryAdvertisingStart _ _ => exchange.trace = []

/-- The connection to the relay stands. -/
def Exchange.GotThrough (exchange : Exchange) : Prop :=
  Reached serverAddr4 httpPort exchange.trace

instance (server : CString) (port : Nat) :
    DecidablePred (HttpClient.Event.Connects server port)
  | ⟨.connect _ addr, ret⟩ =>
      inferInstanceAs (Decidable (addr = ⟨server, port⟩ ∧ (0 : Int) ≤ ret))
  | ⟨.socket, _⟩ | ⟨.errno, _⟩ | ⟨.close _, _⟩ | ⟨.httpClientReq _ _ _, _⟩
  | ⟨.receive _ _, _⟩ | ⟨.store _ _ _, _⟩ => isFalse id

instance : DecidablePred Exchange.GotThrough := fun exchange =>
  inferInstanceAs (Decidable (∃ event ∈ exchange.trace,
    HttpClient.Event.Connects serverAddr4 httpPort event))

/-- What `run_set_SK_v` sends for a request. -/
def LooperAction.sends : LooperAction → List HttpRequest
  | .runSetSkV v => [setRequest v]
  | .tryAdvertisingStart _ _ => []

/-- The requests that the HTTP client is given for the relay. -/
def sentRequests (exchanges : List Exchange) : List HttpRequest :=
  exchanges.flatMap fun exchange => requested exchange.trace

/-- The requests whose connection stood. -/
def through (exchanges : List Exchange) : List LooperAction :=
  (exchanges.filter fun exchange => exchange.GotThrough).map Exchange.request

/-- The last of the calls got through. -/
def LastThrough (exchanges : List Exchange) : Prop :=
  ∀ last ∈ (exchanges.filter fun exchange =>
      exchange.request.sends ≠ []).getLast?, last.GotThrough

/-- The position that the last of the requests asks for. -/
def positionAfter (relay : Option UInt8) : List HttpRequest → Option UInt8
  | [] => relay
  | req :: reqs =>
      if req = setRequest 0 then positionAfter (some 0) reqs
      else if req = setRequest 1 then positionAfter (some 1) reqs
      else positionAfter relay reqs

/-- The position that the thread counts on at `pc`. -/
def LooperPc.countsOn : LooperPc → Option UInt8
  | .switchOn | .sleeping _ .off | .sleptTest .off => some 0
  | .wakeup | .sleeping _ _ | .sleptTest _ | .waitConnected _ | .waitedTest =>
      some 1
  | .semTake | .blocked | .enter | .loopTest | .switchOff => none

section Requests

variable {World : Type} {env : Environment HttpClient.Call.Answer World}
variable {exchanges : List Exchange} {exchange : Exchange}

theorem through_cons :
    through (exchange :: exchanges) =
      (if exchange.GotThrough then [exchange.request] else []) ++
        through exchanges := by
  by_cases gotThrough : exchange.GotThrough
  · simp [through, gotThrough]
  · simp [through, gotThrough]

theorem through_append (first second : List Exchange) :
    through (first ++ second) = through first ++ through second := by
  rw [through, List.filter_append, List.map_append]
  rfl

theorem requested_of_carriedOut (carried : exchange.CarriedOut env) :
    requested exchange.trace =
      if exchange.GotThrough then exchange.request.sends else [] := by
  obtain ⟨request, trace⟩ := exchange
  cases request with
  | runSetSkV v =>
      obtain ⟨before, ret, after, runs⟩ := carried
      obtain ⟨-, reached, unreached⟩ := (HttpClient.askedOnce_of_ignoring runs).1
      split
      · rename_i gotThrough
        exact reached gotThrough
      · rename_i lost
        exact unreached lost
  | tryAdvertisingStart isWakeup timeS =>
      obtain rfl : trace = [] := carried
      split <;> rfl

theorem sentRequests_eq (carried : ∀ exchange ∈ exchanges, exchange.CarriedOut env) :
    sentRequests exchanges = (through exchanges).flatMap LooperAction.sends := by
  induction exchanges with
  | nil => rfl
  | cons exchange exchanges ih =>
      obtain ⟨first, rest⟩ := List.forall_mem_cons.mp carried
      have whole : sentRequests (exchange :: exchanges) =
          requested exchange.trace ++ sentRequests exchanges := rfl
      rw [whole, requested_of_carriedOut first, ih rest, through_cons,
        List.flatMap_append]
      split
      · rw [List.flatMap_singleton]
      · rfl

/-- The requests of a power cycle are for 0 and for 1. -/
theorem positionAfter_sends {staNetworkEn : Bool} {requests : List LooperAction}
    {relay : Option UInt8}
    (cycle : ∀ request ∈ requests, ∃ phase after,
      PowerStep staNetworkEn phase request after) :
    positionAfter relay (requests.flatMap LooperAction.sends) =
      relayAfter relay requests := by
  induction requests generalizing relay with
  | nil => rfl
  | cons request requests ih =>
      obtain ⟨⟨phase, after, taken⟩, rest⟩ := List.forall_mem_cons.mp cycle
      cases request with
      | tryAdvertisingStart isWakeup timeS => exact ih rest
      | runSetSkV v =>
          have isPosition : v = 0 ∨ v = 1 := by
            by_contra other
            obtain ⟨notOff, notOn⟩ := not_or.mp other
            have taken : powerStep staNetworkEn (.runSetSkV v) phase =
              some after := taken
            simp [powerStep, notOff, notOn] at taken
          rcases isPosition with rfl | rfl
          · exact ih rest
          · exact ih rest

theorem countsOn_of_phaseAt {pc : LooperPc} {phase : PowerPhase} {v : UInt8}
    (isAt : PhaseAt pc phase) (counts : v ∈ pc.countsOn) :
    phase.relay = some v := by
  cases pc with
  | semTake | blocked | enter | loopTest | switchOff => cases counts
  | switchOn =>
      obtain rfl : phase = .off := isAt
      exact counts
  | wakeup =>
      obtain rfl : phase = .on := isAt
      exact counts
  | waitConnected tryWakeupCnt =>
      obtain ⟨-, rfl⟩ := isAt
      exact counts
  | waitedTest =>
      obtain ⟨wakeUps, rfl⟩ := isAt
      exact counts
  | sleeping _ stage | sleptTest stage =>
      cases stage with
      | off =>
          obtain rfl : phase = .off := isAt
          exact counts
      | on =>
          obtain rfl : phase = .on := isAt
          exact counts
      | waiting tryWakeupCnt =>
          obtain rfl : phase = .woken (1 + tryWakeupCnt / 30) := isAt
          exact counts
      | connected =>
          obtain ⟨wakeUps, rfl⟩ := isAt
          exact counts

/-- The calls that were lost make no difference if the last one was not. -/
theorem relayAfter_through (last : LastThrough exchanges) :
    relayAfter none (through exchanges) =
      relayAfter none (exchanges.map Exchange.request) := by
  induction exchanges using List.reverseRecOn with
  | nil => rfl
  | append_singleton exchanges exchange ih =>
      rw [through_append, List.map_append, relayAfter_append,
        relayAfter_append, through_cons]
      obtain ⟨request, trace⟩ := exchange
      cases request with
      | runSetSkV v =>
          have gotThrough : Exchange.GotThrough ⟨.runSetSkV v, trace⟩ := by
            apply last
            rw [List.filter_append]
            exact List.getLast?_concat
          rw [if_pos gotThrough]
          rfl
      | tryAdvertisingStart isWakeup timeS =>
          have earlier : LastThrough exchanges := by
            intro other member
            apply last
            rw [List.filter_append]
            simpa [LooperAction.sends] using member
          rw [ih earlier]
          split <;> rfl

end Requests

/-- Over every run of the looper, whatever the network does in each of its calls:
the relay is asked by those whose connection stands, in order and once each, so
the last of these names the position it was last asked for; and if the last call
got through, this is the position the thread counts on. -/
theorem relay_told {World : Type}
    {env : Environment HttpClient.Call.Answer World} {staNetworkEn : Bool}
    {labels : List Label} {s : LooperSystem} {exchanges : List Exchange}
    (run : Path (Step staNetworkEn) booted labels s)
    (made : exchanges.map Exchange.request = actions labels)
    (carried : ∀ exchange ∈ exchanges, exchange.CarriedOut env) :
    sentRequests exchanges = (through exchanges).flatMap LooperAction.sends ∧
      positionAfter none (sentRequests exchanges) =
        relayAfter none (through exchanges) ∧
      (LastThrough exchanges → ∀ v ∈ s.looper.countsOn,
        positionAfter none (sentRequests exchanges) = some v) := by
  obtain ⟨phase, path, isAt⟩ :=
    (looper_simulates staNetworkEn).path run phaseAt_booted
  have sends := sentRequests_eq carried
  have cycle : ∀ request ∈ through exchanges, ∃ before after,
      PowerStep staNetworkEn before request after := by
    intro request member
    obtain ⟨exchange, among, rfl⟩ := List.mem_map.mp member
    apply path.taken
    rw [show labels.flatMap _ = exchanges.map Exchange.request from made.symm]
    exact List.mem_map_of_mem (List.mem_of_mem_filter among)
  have position : positionAfter none (sentRequests exchanges) =
      relayAfter none (through exchanges) := by
    rw [sends]
    exact positionAfter_sends cycle
  refine ⟨sends, position, fun last v counts => ?_⟩
  calc positionAfter none (sentRequests exchanges)
      = relayAfter none (through exchanges) := position
    _ = relayAfter none (exchanges.map Exchange.request) :=
        relayAfter_through last
    _ = relayAfter none (actions labels) := by rw [made]
    _ = phase.relay := relay_of_path path
    _ = some v := countsOn_of_phaseAt isAt counts

section LostRequest

/-- A network that may answer anything. -/
def anyNetwork : Environment HttpClient.Call.Answer Unit where
  answers _ _ _ _ := True

/-- The requests up to the first poll, of which the first finds no socket. -/
def firstLost : List Exchange :=
  [⟨.runSetSkV 0, [⟨.socket, (-1 : Int)⟩]⟩,
    ⟨.runSetSkV 1, [⟨.socket, (3 : Int)⟩,
      ⟨.connect 3 ⟨serverAddr4, httpPort⟩, (0 : Int)⟩,
      ⟨.httpClientReq 3 (setRequest 1) HttpClient.requestTimeout, ⟨[], 0⟩⟩,
      ⟨.close 3, ()⟩]⟩,
    ⟨.tryAdvertisingStart true 10, []⟩]

theorem firstLost_carriedOut :
    ∀ exchange ∈ firstLost, exchange.CarriedOut anyNetwork := by
  simp only [firstLost, List.forall_mem_cons]
  refine ⟨⟨(), 0, (), ?_⟩, ⟨(), 0, (), ?_⟩, rfl, List.forall_mem_nil _⟩
  · apply Runs.call
    · exact trivial
    exact .done _ _
  · apply Runs.call
    · exact trivial
    apply Runs.call
    · exact trivial
    apply Runs.call
    · exact trivial
    apply Runs.call
    · exact trivial
    · exact .done _ _
    all_goals exact ()

/-- The request to switch on gets through, which is enough. -/
theorem lost_request_is_made_up :
    sentRequests firstLost = [setRequest 1] ∧
      positionAfter none (sentRequests firstLost) = some 1 := by
  have run : Path (Step true) booted (toOffCheck ++ toFirstPoll) firstPoll :=
    path_of_execute rfl
  obtain ⟨sends, -, position⟩ := relay_told run rfl firstLost_carriedOut
  have lastThrough : LastThrough firstLost := by
    intro last member
    cases member
    decide
  exact ⟨sends.trans (by decide), position lastThrough 1 rfl⟩

end LostRequest

end AutoReboot

end SzpiSta
