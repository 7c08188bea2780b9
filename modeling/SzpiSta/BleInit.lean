import SzpiSta.BleRc
import SzpiSta.EventLoop

/-!
# Initialising Bluetooth again

`ble_rc_init` of ble_rc.c, which the main loop calls for every message
`EVT_WIFI_CONNECTED` or `EVT_BLE_START`, and `wifi_event_handler` of sta.c, which
posts the former for every connect result.  A second call swaps the UUID data
back and forgets the last paired address, and it loses the identity, since the
stack creates no address twice.  So the identity lasts exactly until the next
call.
-/

namespace SzpiSta

namespace BleInit

open TransitionPaths BleRc EventLoop

/-- `__swap_addr` of the six bytes from index `a` on. -/
def swapAddr {n : Nat} (bytes : Vector UInt8 n) (a : Nat) : Vector UInt8 n :=
  ((bytes.swapIfInBounds a (a + 5)).swapIfInBounds (a + 1) (a + 4)).swapIfInBounds
    (a + 2) (a + 3)

def btAddrLeRandom : UInt8 := 1

/-- The address `set_public_addr` creates an identity with. -/
def publicAddr : BtAddrLe :=
  ⟨btAddrLeRandom, swapAddr #v[0xf4, 0x72, 0x57, 0x66, 0x66, 0x66] 0⟩

/-- `uuid_data` as the program is built. -/
def builtUuidData : Vector UInt8 16 :=
  #v[0x00, 0x01, 0x02, 0x01, 0x05, 0x03, 0xff, 0x00, 0x01,
    0xc8, 0x26, 0xe2, 0x17, 0xdc, 0x52, 0x00]

/-- The advertising system with the rest that `ble_rc_init` works on: the
identity addresses of the stack, whether it is enabled, and whether the thread of
the reboot looper runs. -/
structure BleHost where
  system : BleSystem
  uuidData : Vector UInt8 16
  identities : List BtAddrLe
  enabled : Bool
  btCkThread : Bool

def fixUuidData (uuidData : Vector UInt8 16) : Vector UInt8 16 :=
  swapAddr uuidData 9

/-- `idRet` is the value of `bt_id_create`. -/
def setPublicAddr (idRet : Int) (s : BleHost) : BleHost :=
  { s with
    system.ble.gId := idRet
    identities :=
      if 0 ≤ idRet then s.identities ++ [publicAddr] else s.identities }

/-- `ble_rc_init` up to `bt_enable`, which waits for the controller. -/
def bleRcInitBegin (idRet : Int) (s : BleHost) : BleHost :=
  let s := { s with system.ble.gRcLastPairedAddr := btAddrLeNone }
  let s := { s with uuidData := fixUuidData s.uuidData }
  setPublicAddr idRet s

/-- `ble_rc_init` from the return of `bt_enable` on.  `loaded` are the bonds
found by `settings_load`. -/
def bleRcInitEnd (configSettings : Bool) (enableRet : Int)
    (loaded : Int → List BtAddrLe) (s : BleHost) : BleHost :=
  if enableRet ≠ 0 then s
  else
    let s := { s with enabled := true }
    let s := { s with
      system.ble.advWork := false
      system.ble.advModeSwitchWork := .idle }
    let s :=
      if configSettings then { s with system.ble.bonds := loaded } else s
    { s with btCkThread := true }

/-- The events that `wifi_event_handler` tells apart. -/
inductive NetEvent where
  | wifiConnectResult
  | wifiDisconnectResult
  | other
  deriving DecidableEq

/-- `wifi_event_handler`: the message it sends. -/
def wifiEventHandler : NetEvent → Option EvtMsg
  | .wifiConnectResult => some ⟨evtWifiConnected, 0, 0⟩
  | .wifiDisconnectResult => none
  | .other => none

/-- The event list with its threads, Bluetooth, and whether the main thread is
inside `bt_enable`. -/
structure StaSystem (Thread : Type) where
  events : EvtSystem Thread
  host : BleHost
  enabling : Bool

/-- A network event, a step of the event loop that is not a call of
`ble_rc_init`, such a call in its two parts, with the answers of the stack, or a
step of the advertising system. -/
inductive Label (Thread : Type) where
  | wifiEvent (thread : Thread) (mgmtEvent : NetEvent)
  | loop (label : EventLoop.Label Thread)
  | initBegin (msg : EvtMsg) (idRet : Int)
  | initEnd (msg : EvtMsg) (enableRet : Int) (loaded : Int → List BtAddrLe)
  | ble (label : BleRc.Label)

/-- The label is the return of the main thread from `ble_rc_init`. -/
def callsInit {Thread : Type} : EventLoop.Label Thread → Bool
  | .dispatch _ action => action = some .bleRcInit
  | _ => false

section Step

variable {Thread : Type} [DecidableEq Thread]

/-- The stack creates no identity with an address that has one, and is not
enabled twice. -/
def step (staNetworkEn configSettings : Bool) :
    Label Thread → StaSystem Thread → Option (StaSystem Thread)
  | .wifiEvent thread mgmtEvent, s =>
      match wifiEventHandler mgmtEvent with
      | some msg =>
          (EventLoop.step staNetworkEn
            (.evtSend thread msg.type msg.len msg.data) s.events).map
            fun events => { s with events }
      | none => some s
  | .loop label, s =>
      if callsInit label then none
      else (EventLoop.step staNetworkEn label s.events).map
        fun events => { s with events }
  | .initBegin msg idRet, s =>
      if s.enabling = false ∧ s.events.main = .handling msg ∧
          evtAction staNetworkEn s.events.gFds msg = some .bleRcInit ∧
          (0 ≤ idRet → publicAddr ∉ s.host.identities) then
        some { s with host := bleRcInitBegin idRet s.host, enabling := true }
      else none
  | .initEnd msg enableRet loaded, s =>
      if s.enabling ∧ (s.host.enabled → enableRet < 0) then
        (EventLoop.step staNetworkEn (.dispatch msg (some .bleRcInit))
          s.events).map fun events =>
            { events
              host := bleRcInitEnd configSettings enableRet loaded s.host
              enabling := false }
      else none
  | .ble label, s =>
      (BleRc.step label s.host.system).map
        fun system => { s with host.system := system }

abbrev Step (staNetworkEn configSettings : Bool) :
    StaSystem Thread → Label Thread → StaSystem Thread → Prop :=
  FunctionStep (step staNetworkEn configSettings)

inductive HostEffect (configSettings : Bool) (s : BleHost) :
    Label Thread → BleHost → Prop where
  | wifiEvent (thread : Thread) (mgmtEvent : NetEvent) :
      HostEffect configSettings s (.wifiEvent thread mgmtEvent) s
  | loop (label : EventLoop.Label Thread) :
      HostEffect configSettings s (.loop label) s
  | initBegin (msg : EvtMsg) (idRet : Int)
      (fresh : 0 ≤ idRet → publicAddr ∉ s.identities) :
      HostEffect configSettings s (.initBegin msg idRet)
        (bleRcInitBegin idRet s)
  | initEnd (msg : EvtMsg) (enableRet : Int) (loaded : Int → List BtAddrLe)
      (once : s.enabled = true → enableRet < 0) :
      HostEffect configSettings s (.initEnd msg enableRet loaded)
        (bleRcInitEnd configSettings enableRet loaded s)
  | ble (label : BleRc.Label) (system : BleSystem)
      (taken : BleRc.Step s.system label system) :
      HostEffect configSettings s (.ble label) { s with system }

variable {staNetworkEn configSettings : Bool} {s s' : StaSystem Thread}
variable {label : Label Thread}

theorem step_hostEffect (taken : Step staNetworkEn configSettings s label s') :
    HostEffect configSettings s.host label s'.host := by
  have taken : step staNetworkEn configSettings label s = some s' := taken
  cases label with
  | wifiEvent thread mgmtEvent =>
      cases mgmtEvent with
      | wifiConnectResult =>
          obtain ⟨events, -, rfl⟩ := Option.map_eq_some_iff.mp taken
          exact .wifiEvent thread _
      | wifiDisconnectResult | other =>
          cases taken
          exact .wifiEvent thread _
  | loop label =>
      obtain ⟨-, taken⟩ := Option.ite_none_left_eq_some.mp taken
      obtain ⟨events, -, rfl⟩ := Option.map_eq_some_iff.mp taken
      exact .loop label
  | initBegin msg idRet =>
      obtain ⟨⟨-, -, -, fresh⟩, ⟨⟩⟩ := Option.ite_none_right_eq_some.mp taken
      exact .initBegin msg idRet fresh
  | initEnd msg enableRet loaded =>
      obtain ⟨⟨-, once⟩, taken⟩ := Option.ite_none_right_eq_some.mp taken
      obtain ⟨events, -, rfl⟩ := Option.map_eq_some_iff.mp taken
      exact .initEnd msg enableRet loaded once
  | ble label =>
      obtain ⟨system, moved, rfl⟩ := Option.map_eq_some_iff.mp taken
      exact .ble label system moved

end Step

/-- The program before anything called `ble_rc_init`. -/
structure NotInitialised {Thread : Type} (s : StaSystem Thread) : Prop where
  gId : s.host.system.ble.gId = -1
  uuidData : s.host.uuidData = builtUuidData
  enabled : s.host.enabled = false
  enabling : s.enabling = false

/-- The step ends a call of `ble_rc_init` that has created an identity and
enabled Bluetooth. -/
def InitSucceeds {Thread : Type} (s : StaSystem Thread) : Label Thread → Prop
  | .initEnd _ enableRet _ => enableRet = 0 ∧ 0 ≤ s.host.system.ble.gId
  | _ => False

def Label.OfInit {Thread : Type} : Label Thread → Prop
  | .initBegin _ _ | .initEnd _ _ _ => True
  | _ => False

/-- The step leaves `g_id`, `uuid_data`, `RC_LAST_PAIRED_ADDR` and the work items
as they are. -/
structure LeavesUnchanged (before after : BleHost) : Prop where
  gId : after.system.ble.gId = before.system.ble.gId
  uuidData : after.uuidData = before.uuidData
  gRcLastPairedAddr :
    after.system.ble.gRcLastPairedAddr = before.system.ble.gRcLastPairedAddr
  advWork : after.system.ble.advWork = before.system.ble.advWork
  advModeSwitchWork :
    after.system.ble.advModeSwitchWork = before.system.ble.advModeSwitchWork

section Again

variable {Thread : Type} {staNetworkEn configSettings : Bool}
variable {host host' : BleHost} {s s' last : StaSystem Thread}
variable {label : Label Thread} {labels : List (Label Thread)}

def UuidKnown (uuidData : Vector UInt8 16) : Prop :=
  uuidData = builtUuidData ∨ uuidData = fixUuidData builtUuidData

theorem UuidKnown.fixUuidData {uuidData : Vector UInt8 16}
    (known : UuidKnown uuidData) :
    UuidKnown (fixUuidData uuidData) ∧ fixUuidData uuidData ≠ uuidData := by
  rcases known with rfl | rfl
  · exact ⟨.inr rfl, by decide⟩
  · exact ⟨.inl (by decide), by decide⟩

/-- What every run keeps: a valid `g_id` names an identity with the address of
`set_public_addr`. -/
structure HostKept (s : BleHost) : Prop where
  created : 0 ≤ s.system.ble.gId → publicAddr ∈ s.identities
  uuidData : UuidKnown s.uuidData

theorem HostKept.begin (kept : HostKept host) (idRet : Int) :
    HostKept (bleRcInitBegin idRet host) := by
  refine ⟨fun created => ?_, kept.uuidData.fixUuidData.1⟩
  have created : 0 ≤ idRet := created
  simp [bleRcInitBegin, setPublicAddr, created]

theorem bleRcInitEnd_frame (configSettings : Bool) (enableRet : Int)
    (loaded : Int → List BtAddrLe) (host : BleHost) :
    (bleRcInitEnd configSettings enableRet loaded host).system.ble.gId =
        host.system.ble.gId ∧
      (bleRcInitEnd configSettings enableRet loaded host).uuidData =
        host.uuidData ∧
      (bleRcInitEnd configSettings enableRet loaded host).identities =
        host.identities := by
  unfold bleRcInitEnd
  split
  · exact ⟨rfl, rfl, rfl⟩
  · cases configSettings <;> exact ⟨rfl, rfl, rfl⟩

theorem HostKept.effect (kept : HostKept host)
    (effect : HostEffect configSettings host label host') : HostKept host' := by
  cases effect with
  | wifiEvent | loop => exact kept
  | initBegin msg idRet fresh => exact kept.begin idRet
  | initEnd msg enableRet loaded once =>
      obtain ⟨gId, uuidData, identities⟩ :=
        bleRcInitEnd_frame configSettings enableRet loaded host
      constructor
      · rw [gId, identities]
        exact kept.created
      · rw [uuidData]
        exact kept.uuidData
  | ble label system moved =>
      refine ⟨fun created => ?_, kept.uuidData⟩
      rw [step_gId moved] at created
      exact kept.created created

/-- What the first successful call leaves, and every step keeps. -/
structure Initialised (s : BleHost) : Prop where
  created : publicAddr ∈ s.identities
  enabled : s.enabled = true
  uuidData : UuidKnown s.uuidData

theorem HostKept.initialised {msg : EvtMsg} {loaded : Int → List BtAddrLe}
    (kept : HostKept host) (created : 0 ≤ host.system.ble.gId)
    (effect : HostEffect configSettings host
      (.initEnd msg 0 loaded : Label Thread) host') :
    Initialised host' := by
  cases effect with
  | initEnd _ _ _ once =>
      obtain ⟨-, uuidData, identities⟩ :=
        bleRcInitEnd_frame configSettings 0 loaded host
      refine ⟨?_, ?_, ?_⟩
      · rw [identities]
        exact kept.created created
      · cases configSettings <;> rfl
      · rw [uuidData]
        exact kept.uuidData

/-- The second part of a later call does nothing, since `bt_enable` fails. -/
theorem Initialised.bleRcInitEnd {enableRet : Int} (ready : Initialised host)
    (once : host.enabled = true → enableRet < 0)
    (loaded : Int → List BtAddrLe) :
    bleRcInitEnd configSettings enableRet loaded host = host := by
  have failed : enableRet ≠ 0 := Int.ne_of_lt (once ready.enabled)
  exact if_pos failed

theorem Initialised.effect (ready : Initialised host)
    (effect : HostEffect configSettings host label host') :
    Initialised host' := by
  cases effect with
  | wifiEvent | loop => exact ready
  | initBegin msg idRet fresh =>
      have refused : ¬ 0 ≤ idRet := fun created => fresh created ready.created
      refine ⟨?_, ready.enabled, ready.uuidData.fixUuidData.1⟩
      simpa [bleRcInitBegin, setPublicAddr, refused] using ready.created
  | initEnd msg enableRet loaded once =>
      rw [ready.bleRcInitEnd once loaded]
      exact ready
  | ble => exact ⟨ready.created, ready.enabled, ready.uuidData⟩

/-- What the first part of a later call does: the identity is lost, the UUID data
swapped back and the last paired address forgotten.  The work items stay. -/
theorem Initialised.initBegin {msg : EvtMsg} {idRet : Int}
    (ready : Initialised host)
    (effect : HostEffect configSettings host
      (.initBegin msg idRet : Label Thread) host') :
    host'.system.ble.gId < 0 ∧ host'.uuidData ≠ host.uuidData ∧
      host'.system.ble.gRcLastPairedAddr = btAddrLeNone ∧
      host'.system.ble.advWork = host.system.ble.advWork ∧
      host'.system.ble.advModeSwitchWork =
        host.system.ble.advModeSwitchWork := by
  cases effect with
  | initBegin _ _ fresh =>
      have refused : idRet < 0 :=
        Int.not_le.mp fun created => fresh created ready.created
      exact ⟨refused, ready.uuidData.fixUuidData.2, rfl, rfl, rfl⟩

/-- Without a further call, `g_id` stays, and the end of a call changes
nothing. -/
theorem Initialised.quietEffect (ready : Initialised host)
    (quiet : ∀ msg idRet, label ≠ .initBegin msg idRet)
    (effect : HostEffect configSettings host label host') :
    host'.system.ble.gId = host.system.ble.gId ∧
      (label.OfInit → LeavesUnchanged host host') := by
  cases effect with
  | wifiEvent | loop => exact ⟨rfl, False.elim⟩
  | initBegin msg idRet => exact (quiet msg idRet rfl).elim
  | initEnd msg enableRet loaded once =>
      rw [ready.bleRcInitEnd once loaded]
      exact ⟨rfl, fun _ => ⟨rfl, rfl, rfl, rfl, rfl⟩⟩
  | ble label system moved => exact ⟨step_gId moved, False.elim⟩

variable [DecidableEq Thread]

/-- Every call of `ble_rc_init` leaves what it may not touch, and the identity in
use stays the one of the first state. -/
structure StaysInitialised (staNetworkEn configSettings : Bool)
    (s : StaSystem Thread) (labels : List (Label Thread))
    (last : StaSystem Thread) : Prop where
  calls : EveryStep (Step staNetworkEn configSettings)
    (fun before label after =>
      label.OfInit → LeavesUnchanged before.host after.host) s labels last
  identity : EveryState (Step staNetworkEn configSettings)
    (fun s' => s'.host.system.ble.identity = s.host.system.ble.identity)
    s labels last

def Quiet (labels : List (Label Thread)) : Prop :=
  ∀ msg idRet, .initBegin msg idRet ∉ labels

theorem Initialised.path
    (path : Path (Step staNetworkEn configSettings) s labels s')
    (ready : Initialised s.host) : Initialised s'.host :=
  path.invariant (fun s => Initialised s.host)
    (fun _ _ _ ready taken => ready.effect (step_hostEffect taken)) ready

theorem gId_of_quiet (ready : Initialised s.host)
    (path : Path (Step staNetworkEn configSettings) s labels s')
    (quiet : Quiet labels) :
    s'.host.system.ble.gId = s.host.system.ble.gId := by
  induction path with
  | nil => rfl
  | cons head _ ih =>
      have effect := step_hostEffect head
      have rest := ih (ready.effect effect) fun msg idRet member =>
        quiet msg idRet (List.mem_cons_of_mem _ member)
      have here := (ready.quietEffect (fun msg idRet same =>
        quiet msg idRet (same ▸ List.mem_cons_self)) effect).1
      exact rest.trans here

theorem staysInitialised_of_quiet (ready : Initialised s.host)
    (quiet : Quiet labels) :
    StaysInitialised staNetworkEn configSettings s labels last := by
  constructor
  · intro earlier label later before after split toBefore taken _
    refine ((ready.path toBefore).quietEffect ?_ (step_hostEffect taken)).2
    rintro msg idRet rfl
    exact quiet msg idRet (by simp [split])
  · intro earlier later middle split toMiddle _
    have same := gId_of_quiet ready toMiddle fun msg idRet member =>
      quiet msg idRet (by simp [split, member])
    simp only [BleState.identity, same]

theorem quiet_of_staysInitialised (ready : Initialised s.host)
    (path : Path (Step staNetworkEn configSettings) s labels last)
    (stays : StaysInitialised staNetworkEn configSettings s labels last) :
    Quiet labels := by
  intro msg idRet member
  obtain ⟨earlier, later, split⟩ := List.append_of_mem member
  rw [split] at path
  obtain ⟨before, toBefore, rest⟩ := path_append_iff.mp path
  obtain ⟨after, taken, toLast⟩ := path_cons_iff.mp rest
  have same := stays.calls _ _ _ _ _ split toBefore taken toLast trivial
  have swapped := (ready.path toBefore).initBegin (step_hostEffect taken)
  exact swapped.2.1 same.uuidData

end Again

/-- In every run, after a call of `ble_rc_init` that has created an identity and
enabled Bluetooth: everything stays exactly as long as no message makes the main
loop call it again. -/
theorem init_idempotent_iff {Thread : Type} [DecidableEq Thread]
    {staNetworkEn configSettings : Bool} {boot before s last : StaSystem Thread}
    {earlier later : List (Label Thread)} {label : Label Thread}
    (notYet : NotInitialised boot)
    (toCall : Path (Step staNetworkEn configSettings) boot earlier before)
    (succeeds : InitSucceeds before label)
    (taken : Step staNetworkEn configSettings before label s)
    (run : Path (Step staNetworkEn configSettings) s later last) :
    StaysInitialised staNetworkEn configSettings s later last ↔
      Quiet later := by
  have fromBoot : HostKept boot.host := by
    refine ⟨fun created => ?_, .inl notYet.uuidData⟩
    rw [notYet.gId] at created
    cases created
  have kept : HostKept before.host :=
    toCall.invariant (fun s => HostKept s.host)
      (fun _ _ _ kept taken => kept.effect (step_hostEffect taken)) fromBoot
  have ready : Initialised s.host := by
    cases label with
    | initEnd msg enableRet loaded =>
        obtain ⟨rfl, created⟩ := succeeds
        exact kept.initialised created (step_hostEffect taken)
    | wifiEvent | loop | initBegin | ble => exact succeeds.elim
  exact ⟨quiet_of_staysInitialised ready run, staysInitialised_of_quiet ready⟩

/-- A program with one thread beside the main one, that has not begun. -/
def atBoot : StaSystem Unit where
  events :=
    { evtList := []
      counter := 0
      gFds := ⟨3, -1, by decide⟩
      senders := fun _ => .idle
      main := .polling }
  host :=
    { system := { bootedWith [] with ble.gId := -1 }
      uuidData := builtUuidData
      identities := []
      enabled := false
      btCkThread := false }
  enabling := false

/-- A connect result up to the call of `ble_rc_init`. -/
def connectResult (idRet : Int) : List (Label Unit) :=
  let msg : EvtMsg := ⟨evtWifiConnected, 0, 0⟩
  [.wifiEvent () .wifiConnectResult, .loop (.append () msg),
    .loop (.eventfdWrite ()), .loop (.pollReturns ⟨1, pollIn, 0⟩),
    .loop .eventfdRead, .loop (.slistGet (some msg)), .initBegin msg idRet]

def initReturns : Label Unit :=
  .initEnd ⟨evtWifiConnected, 0, 0⟩ 0 fun _ => []

def backToPoll : List (Label Unit) :=
  [.loop (.slistGet none), .loop .sleepEnds]

theorem init_once_stays : ∃ before s last,
    Path (Step true true) atBoot (connectResult 1) before ∧
      Step true true before initReturns s ∧
      Path (Step true true) s backToPoll last ∧
      StaysInitialised true true s backToPoll last := by
  obtain ⟨before, s, last, toCall, taken, succeeds, run⟩ : ∃ before s last,
      Path (Step true true) atBoot (connectResult 1) before ∧
        Step true true before initReturns s ∧
        InitSucceeds before initReturns ∧
        Path (Step true true) s backToPoll last := by
    refine ⟨_, _, _, path_of_execute rfl, rfl, ⟨rfl, ?_⟩, path_of_execute rfl⟩
    decide
  have quiet : Quiet backToPoll := by simp [Quiet, backToPoll]
  exact ⟨before, s, last, toCall, taken, run,
    (init_idempotent_iff ⟨rfl, rfl, rfl, rfl⟩ toCall succeeds taken run).mpr
      quiet⟩

/-- The Wi-Fi comes back: the second call loses the identity. -/
theorem init_twice_loses_identity : ∃ before s last,
    Path (Step true true) atBoot (connectResult 1) before ∧
      Step true true before initReturns s ∧ InitSucceeds before initReturns ∧
      Path (Step true true) s (backToPoll ++ connectResult (-17)) last ∧
      ¬ StaysInitialised true true s (backToPoll ++ connectResult (-17)) last ∧
      last.host.system.ble.gId = -17 := by
  refine ⟨_, _, _, path_of_execute rfl, rfl, ⟨rfl, by decide⟩,
    path_of_execute rfl, ?_, rfl⟩
  intro stays
  refine quiet_of_staysInitialised ⟨?_, rfl, .inr rfl⟩ (path_of_execute rfl)
    stays ⟨evtWifiConnected, 0, 0⟩ (-17) ?_
  · exact List.mem_cons_self
  · simp [connectResult]

end BleInit

end SzpiSta
