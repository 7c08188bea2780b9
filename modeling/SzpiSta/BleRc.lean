import Mathlib.Logic.Function.Basic
import SzpiSta.DelayableWork
import SzpiSta.TransitionPaths

/-!
# The advertising state machine of the remote control

The functions of ble_rc.c that start and stop advertising, over the globals of
that file, the two work items, and what they use of the Bluetooth stack: whether
the controller is advertising, the bonds, the live connections and the connection
callbacks that wait to be delivered.

A function that sleeps is split at its `k_sleep` into two parts.  A step of the
system is one such part, a function that does not sleep, or something the stack
does by itself.
-/

namespace SzpiSta

namespace BleRc

/-- `bt_addr_le_t`. -/
structure BtAddrLe where
  type : UInt8
  val : Vector UInt8 6
  deriving DecidableEq

/-- `BT_ADDR_LE_NONE`. -/
def btAddrLeNone : BtAddrLe := ⟨0, Vector.replicate 6 0xff⟩

/-- `BT_ADDR_LE_ANY`. -/
def btAddrLeAny : BtAddrLe := ⟨0, Vector.replicate 6 0⟩

/-- The values of `g_btrc_st`. -/
inductive BtrcSt where
  | disconnecte
  | connected
  | securityLvOk
  deriving DecidableEq, Repr

/-- What is advertised: for any peer to pair, directed at one peer, or not
connectable with the bytes that wake a peer up. -/
inductive AdvKind where
  | waitPair
  | direct (peer : BtAddrLe)
  | wakeup (feData : Vector UInt8 3)
  deriving DecidableEq

/-- The parameters of `bt_le_adv_start`. -/
structure AdvParam where
  id : Int
  kind : AdvKind
  deriving DecidableEq

/-- A connection callback with its arguments.  The address is what
`bt_conn_get_dst` returns for the connection. -/
inductive Callback where
  | connected (dst : Option BtAddrLe) (err : UInt8)
  | disconnected (dst : Option BtAddrLe)
  deriving DecidableEq

/-- `BT_HCI_ERR_ADV_TIMEOUT`. -/
def btHciErrAdvTimeout : UInt8 := 0x3c

structure BleState where
  isAdvRunning : Bool
  gWakeupAdvMode : Bool
  gBtrcSt : BtrcSt
  gId : Int
  gRcLastPairedAddr : BtAddrLe
  feData : Vector UInt8 3
  /-- `adv_work` is in the queue. -/
  advWork : Bool
  advModeSwitchWork : DelayableWork
  /-- What the controller advertises. -/
  advertising : Option AdvParam
  /-- The bonds of an identity, in the order `bt_foreach_bond` visits them. -/
  bonds : Int → List BtAddrLe
  /-- The addresses of the live connections. -/
  connections : List (Option BtAddrLe)
  /-- The callbacks that wait to be delivered, oldest first. -/
  callbacks : List Callback

/-- A connection-complete event has not been delivered yet. -/
def BleState.ConnectedWaits (s : BleState) : Prop :=
  ∃ dst err, Callback.connected dst err ∈ s.callbacks

/-- The identity in use: `g_id`, or `BT_ID_DEFAULT`. -/
def BleState.identity (s : BleState) : Int :=
  if s.gId < 0 then 0 else s.gId

/-- `bond_find`, called for every bond. -/
def bondFind (s : BleState) (addr : BtAddrLe) : BleState :=
  { s with gRcLastPairedAddr := addr }

/-- What `advertising_continue` asks the controller to advertise. -/
def BleState.advParam (s : BleState) : AdvParam where
  id := s.identity
  kind :=
    if s.gWakeupAdvMode = false then
      if s.gRcLastPairedAddr = btAddrLeNone then .waitPair
      else .direct s.gRcLastPairedAddr
    else .wakeup s.feData

/-- `err` is the value of `bt_le_adv_start`. -/
def advertisingContinue (err : Int) (s : BleState) : BleState :=
  if s.isAdvRunning then s
  else if err ≠ 0 then s
  else { s with advertising := some s.advParam, isAdvRunning := true }

def advertisingStart (s : BleState) : BleState :=
  let s := { s with gRcLastPairedAddr := btAddrLeNone }
  let s := (s.bonds s.identity).foldl bondFind s
  if s.isAdvRunning then s
  else { s with advWork := true }

/-- `err` is the value of `bt_le_adv_stop`; the return code and the state. -/
def advertisingStop (err : Int) (s : BleState) : Int × BleState :=
  if ¬ s.isAdvRunning then (0, s)
  else if err ≠ 0 then (-1, s)
  else (0, { s with advertising := none, isAdvRunning := false })

/-- The handler of `adv_work`. -/
def advertisingProcess (err : Int) (s : BleState) : BleState :=
  advertisingContinue err { s with advWork := false }

def updateFeData (dstAddr : BtAddrLe) (s : BleState) : BleState :=
  { s with feData := #v[dstAddr.val[0], dstAddr.val[1], dstAddr.val[2]] }

/-- `K_MSEC`, which makes a negative number of milliseconds zero. -/
def kMsec (ms : Int32) : Nat := ms.toInt.toNat

def BleState.rescheduleModeSwitch (delayMs : Nat) (s : BleState) : BleState :=
  { s with advModeSwitchWork := s.advModeSwitchWork.reschedule delayMs }

def connected (dst : Option BtAddrLe) (err : UInt8) (s : BleState) : BleState :=
  let s := { s with isAdvRunning := false }
  let s := match dst with
    | some dstAddr =>
      let s := updateFeData dstAddr s
      { s with gRcLastPairedAddr := dstAddr }
    | none => s
  if err ≠ 0 then
    if err = btHciErrAdvTimeout then s.rescheduleModeSwitch (kMsec (2 * 1000))
    else s
  else { s with gBtrcSt := .connected }

def disconnected (dst : Option BtAddrLe) (s : BleState) : BleState :=
  match dst with
  | none => s
  | some _ =>
    let s := { s with gBtrcSt := .disconnecte }
    s.rescheduleModeSwitch (kMsec (2 * 1000))

def securityChangedCb (err : Int) (s : BleState) : BleState :=
  if err = 0 then { s with gBtrcSt := .securityLvOk } else s

/-- `err` is the value of `bt_unpair`, which for `BT_ADDR_LE_ANY` removes every
bond. -/
def tryUnpair (err : Int) (addr : BtAddrLe) (s : BleState) : BleState :=
  if err ≠ 0 then s
  else
    let kept := (s.bonds s.identity).filter fun bond =>
      addr ≠ btAddrLeAny ∧ bond ≠ addr
    { s with bonds := Function.update s.bonds s.identity kept }

def cmdDeletePaired (unpairErr stopErr : Int) (s : BleState) : BleState :=
  let s := tryUnpair unpairErr s.gRcLastPairedAddr s
  let s := (advertisingStop stopErr s).2
  { s with gRcLastPairedAddr := btAddrLeNone }

/-- `try_advertising_start` up to its sleep. -/
def tryAdvertisingStartBegin (isWakeup : Bool) (stopErr : Int) (s : BleState) :
    BleState :=
  let s := { s with advModeSwitchWork := s.advModeSwitchWork.cancel }
  let s := { s with gWakeupAdvMode := isWakeup }
  (advertisingStop stopErr s).2

/-- `try_advertising_start` after its sleep.  The product is an `int`. -/
def tryAdvertisingStartEnd (timeS : Int32) (s : BleState) : BleState :=
  let s := advertisingStart s
  if timeS ≠ 0 then s.rescheduleModeSwitch (kMsec (timeS * 1000)) else s

/-- `adv_mode_switch_handler` up to its sleep. -/
def advModeSwitchHandlerBegin (stopErr : Int) (s : BleState) : BleState :=
  (advertisingStop stopErr s).2

/-- `adv_mode_switch_handler` after its sleep. -/
def advModeSwitchHandlerEnd (s : BleState) : BleState :=
  let s := { s with gWakeupAdvMode := false }
  if s.gBtrcSt = .disconnecte then advertisingStart s else s

/-- The advertisement can be answered by a connection. -/
def AdvKind.connectable : AdvKind → Bool
  | .waitPair | .direct _ => true
  | .wakeup _ => false

/-- The globals and the stack, the calls of `try_advertising_start` that are
asleep, with their argument, and whether the mode switch handler is asleep.
While it is, the work queue runs nothing else. -/
structure BleSystem where
  ble : BleState
  starting : List Int32
  switching : Bool

/-- The steps, with the answers of the stack. -/
inductive Label where
  | startBegin (isWakeup : Bool) (timeS : Int32) (stopErr : Int)
  | startEnd (sleeper : Nat)
  | stop (stopErr : Int)
  | deletePaired (unpairErr stopErr : Int)
  | advWork (startErr : Int)
  | timerExpires
  | switchBegin (stopErr : Int)
  | switchEnd
  | callback
  | securityChanged (err : Int)
  | advEnds (dst : Option BtAddrLe) (err : UInt8)
  | linkLost (link : Nat)
  | bonded (addr : BtAddrLe)
  deriving DecidableEq

/-- The callback at the head of the queue is called. -/
def deliver : Callback → BleState → BleState
  | .connected dst err => connected dst err
  | .disconnected dst => disconnected dst

/-- The controller stops by itself: a connection was established, or could not
be, or directed advertising timed out. -/
def advertisingEnds (dst : Option BtAddrLe) (err : UInt8) (s : BleState) :
    BleState :=
  { s with
    advertising := none
    connections := if err = 0 then dst :: s.connections else s.connections
    callbacks := s.callbacks ++ [.connected dst err] }

/-- A live connection ends. -/
def linkEnds (link : Nat) (dst : Option BtAddrLe) (s : BleState) : BleState :=
  { s with
    connections := s.connections.eraseIdx link
    callbacks := s.callbacks ++ [.disconnected dst] }

/-- A peer has paired. -/
def addBond (addr : BtAddrLe) (s : BleState) : BleState :=
  let bonds := s.bonds s.identity ++ [addr]
  { s with bonds := Function.update s.bonds s.identity bonds }

/-- Some advertisement is on air that a connection can end, with whatever error
code. -/
def BleState.canEnd (s : BleState) : Bool :=
  s.advertising.any fun adv => adv.kind.connectable

def Callback.isDisconnected : Callback → Bool
  | .disconnected _ => true
  | .connected _ _ => false

/-- Encryption can change on a live connection, and on one whose end has not
been reported yet. -/
def BleState.hasLink (s : BleState) : Bool :=
  s.connections ≠ [] || s.callbacks.any Callback.isDisconnected

def step : Label → BleSystem → Option BleSystem
  | .startBegin isWakeup timeS stopErr, s =>
      some { s with
        ble := tryAdvertisingStartBegin isWakeup stopErr s.ble
        starting := s.starting ++ [timeS] }
  | .startEnd sleeper, s =>
      s.starting[sleeper]?.map fun timeS =>
        { s with
          ble := tryAdvertisingStartEnd timeS s.ble
          starting := s.starting.eraseIdx sleeper }
  | .stop stopErr, s => some { s with ble := (advertisingStop stopErr s.ble).2 }
  | .deletePaired unpairErr stopErr, s =>
      some { s with ble := cmdDeletePaired unpairErr stopErr s.ble }
  | .advWork startErr, s =>
      if s.ble.advWork ∧ ¬ s.switching then
        some { s with ble := advertisingProcess startErr s.ble }
      else none
  | .timerExpires, s =>
      if s.ble.advModeSwitchWork.timer.isSome then
        let work := s.ble.advModeSwitchWork.expire
        some { s with ble := { s.ble with advModeSwitchWork := work } }
      else none
  | .switchBegin stopErr, s =>
      if s.ble.advModeSwitchWork.queued ∧ ¬ s.switching then
        let ble := { s.ble with
          advModeSwitchWork := s.ble.advModeSwitchWork.take }
        some { s with
          ble := advModeSwitchHandlerBegin stopErr ble
          switching := true }
      else none
  | .switchEnd, s =>
      if s.switching then
        some { s with ble := advModeSwitchHandlerEnd s.ble, switching := false }
      else none
  | .callback, s =>
      match s.ble.callbacks with
      | [] => none
      | callback :: callbacks =>
          some { s with ble := deliver callback { s.ble with callbacks } }
  | .securityChanged err, s =>
      if s.ble.hasLink then some { s with ble := securityChangedCb err s.ble }
      else none
  | .advEnds dst err, s =>
      if s.ble.canEnd then
        some { s with ble := advertisingEnds dst err s.ble }
      else none
  | .linkLost link, s =>
      s.ble.connections[link]?.map fun dst =>
        { s with ble := linkEnds link dst s.ble }
  | .bonded addr, s => some { s with ble := addBond addr s.ble }

abbrev Step : BleSystem → Label → BleSystem → Prop :=
  TransitionPaths.FunctionStep step

/-- What a step of the system requires and does. -/
inductive Effect (s : BleSystem) : Label → BleSystem → Prop where
  | startBegin (isWakeup : Bool) (timeS : Int32) (stopErr : Int) :
      Effect s (.startBegin isWakeup timeS stopErr)
        { s with
          ble := tryAdvertisingStartBegin isWakeup stopErr s.ble
          starting := s.starting ++ [timeS] }
  | startEnd (sleeper : Nat) (timeS : Int32)
      (asleep : s.starting[sleeper]? = some timeS) :
      Effect s (.startEnd sleeper)
        { s with
          ble := tryAdvertisingStartEnd timeS s.ble
          starting := s.starting.eraseIdx sleeper }
  | stop (stopErr : Int) :
      Effect s (.stop stopErr)
        { s with ble := (advertisingStop stopErr s.ble).2 }
  | deletePaired (unpairErr stopErr : Int) :
      Effect s (.deletePaired unpairErr stopErr)
        { s with ble := cmdDeletePaired unpairErr stopErr s.ble }
  | advWork (startErr : Int) (queued : s.ble.advWork = true)
      (free : s.switching = false) :
      Effect s (.advWork startErr)
        { s with ble := advertisingProcess startErr s.ble }
  | timerExpires (armed : s.ble.advModeSwitchWork.timer.isSome) :
      Effect s .timerExpires
        { s with ble := { s.ble with
            advModeSwitchWork := s.ble.advModeSwitchWork.expire } }
  | switchBegin (stopErr : Int)
      (queued : s.ble.advModeSwitchWork.queued = true)
      (free : s.switching = false) :
      Effect s (.switchBegin stopErr)
        { s with
          ble := advModeSwitchHandlerBegin stopErr { s.ble with
            advModeSwitchWork := s.ble.advModeSwitchWork.take }
          switching := true }
  | switchEnd (asleep : s.switching = true) :
      Effect s .switchEnd
        { s with ble := advModeSwitchHandlerEnd s.ble, switching := false }
  | callback (callback : Callback) (callbacks : List Callback)
      (waits : s.ble.callbacks = callback :: callbacks) :
      Effect s .callback
        { s with ble := deliver callback { s.ble with callbacks } }
  | securityChanged (err : Int) (hasLink : s.ble.hasLink = true) :
      Effect s (.securityChanged err)
        { s with ble := securityChangedCb err s.ble }
  | advEnds (dst : Option BtAddrLe) (err : UInt8)
      (canEnd : s.ble.canEnd = true) :
      Effect s (.advEnds dst err)
        { s with ble := advertisingEnds dst err s.ble }
  | linkLost (link : Nat) (dst : Option BtAddrLe)
      (live : s.ble.connections[link]? = some dst) :
      Effect s (.linkLost link) { s with ble := linkEnds link dst s.ble }
  | bonded (addr : BtAddrLe) :
      Effect s (.bonded addr) { s with ble := addBond addr s.ble }

theorem step_effect {s s' : BleSystem} {label : Label}
    (taken : Step s label s') : Effect s label s' := by
  have taken : step label s = some s' := taken
  cases label with
  | startBegin isWakeup timeS stopErr =>
      cases taken
      exact .startBegin isWakeup timeS stopErr
  | startEnd sleeper =>
      obtain ⟨timeS, asleep, rfl⟩ := Option.map_eq_some_iff.mp taken
      exact .startEnd sleeper timeS asleep
  | stop stopErr =>
      cases taken
      exact .stop stopErr
  | deletePaired unpairErr stopErr =>
      cases taken
      exact .deletePaired unpairErr stopErr
  | advWork startErr =>
      obtain ⟨⟨queued, free⟩, ⟨⟩⟩ := Option.ite_none_right_eq_some.mp taken
      exact .advWork startErr queued (by simpa using free)
  | timerExpires =>
      obtain ⟨armed, ⟨⟩⟩ := Option.ite_none_right_eq_some.mp taken
      exact .timerExpires armed
  | switchBegin stopErr =>
      obtain ⟨⟨queued, free⟩, ⟨⟩⟩ := Option.ite_none_right_eq_some.mp taken
      exact .switchBegin stopErr queued (by simpa using free)
  | switchEnd =>
      obtain ⟨asleep, ⟨⟩⟩ := Option.ite_none_right_eq_some.mp taken
      exact .switchEnd asleep
  | callback =>
      cases waits : s.ble.callbacks with
      | nil =>
          rw [step, waits] at taken
          cases taken
      | cons callback callbacks =>
          rw [step, waits] at taken
          cases taken
          exact .callback callback callbacks waits
  | securityChanged err =>
      obtain ⟨hasLink, ⟨⟩⟩ := Option.ite_none_right_eq_some.mp taken
      exact .securityChanged err hasLink
  | advEnds dst err =>
      obtain ⟨canEnd, ⟨⟩⟩ := Option.ite_none_right_eq_some.mp taken
      exact .advEnds dst err canEnd
  | linkLost link =>
      obtain ⟨dst, live, rfl⟩ := Option.map_eq_some_iff.mp taken
      exact .linkLost link dst live
  | bonded addr =>
      cases taken
      exact .bonded addr

section Functions

variable {s : BleState} {err : Int}

/-- The bond that `advertising_start` visits last. -/
def BleState.lastBond (s : BleState) : BtAddrLe :=
  (s.bonds s.identity).foldl (fun _ addr => addr) btAddrLeNone

theorem foldl_bondFind (addrs : List BtAddrLe) :
    addrs.foldl bondFind s =
      { s with gRcLastPairedAddr :=
          addrs.foldl (fun _ addr => addr) s.gRcLastPairedAddr } := by
  induction addrs generalizing s with
  | nil => rfl
  | cons addr addrs ih =>
      rw [List.foldl_cons, ih, List.foldl_cons]
      rfl

/-- Everything `advertising_start` changes. -/
theorem advertisingStart_eq (s : BleState) :
    advertisingStart s =
      { s with
        gRcLastPairedAddr := s.lastBond
        advWork := s.advWork || !s.isAdvRunning } := by
  unfold advertisingStart
  dsimp only
  rw [foldl_bondFind]
  cases running : s.isAdvRunning with
  | false =>
      simp only [Bool.not_false, Bool.or_true]
      rfl
  | true =>
      simp only [Bool.not_true, Bool.or_false]
      rfl

/-- Everything `try_advertising_start` changes after its sleep. -/
theorem tryAdvertisingStartEnd_eq (timeS : Int32) (s : BleState) :
    tryAdvertisingStartEnd timeS s =
      { s with
        gRcLastPairedAddr := s.lastBond
        advWork := s.advWork || !s.isAdvRunning
        advModeSwitchWork :=
          if timeS ≠ 0 then
            s.advModeSwitchWork.reschedule (kMsec (timeS * 1000))
          else s.advModeSwitchWork } := by
  unfold tryAdvertisingStartEnd
  rw [advertisingStart_eq]
  dsimp only
  split <;> rfl

/-- Everything the handler of the mode switch changes after its sleep. -/
theorem advModeSwitchHandlerEnd_eq (s : BleState) :
    advModeSwitchHandlerEnd s =
      if s.gBtrcSt = .disconnecte then
        { s with
          gWakeupAdvMode := false
          gRcLastPairedAddr := s.lastBond
          advWork := s.advWork || !s.isAdvRunning }
      else { s with gWakeupAdvMode := false } := by
  unfold advModeSwitchHandlerEnd
  dsimp only
  rw [advertisingStart_eq]
  rfl

/-- A stop that succeeds leaves the flag cleared. -/
theorem advertisingStop_stopped (succeeds : (advertisingStop err s).1 = 0) :
    (advertisingStop err s).2.isAdvRunning = false := by
  unfold advertisingStop at succeeds ⊢
  split
  case isTrue stopped => simpa using stopped
  case isFalse running =>
  rw [if_neg running] at succeeds
  split
  case isTrue failed =>
    rw [if_pos failed] at succeeds
    cases succeeds
  case isFalse => rfl

theorem advertisingStop_silent (silent : s.isAdvRunning = false) :
    advertisingStop err s = (0, s) := by
  unfold advertisingStop
  rw [silent]
  rfl

theorem advertisingStop_keeps_silent (silent : s.isAdvRunning = false) :
    (advertisingStop err s).2.isAdvRunning = false := by
  rw [advertisingStop_silent silent]
  exact silent

theorem advertisingStop_frame (err : Int) (s : BleState) :
    (advertisingStop err s).2 = s ∨
      (advertisingStop err s).2 =
        { s with advertising := none, isAdvRunning := false } := by
  unfold advertisingStop
  split
  · exact .inl rfl
  split
  · exact .inl rfl
  · exact .inr rfl

@[simp]
theorem advertisingStop_gWakeupAdvMode :
    (advertisingStop err s).2.gWakeupAdvMode = s.gWakeupAdvMode := by
  rcases advertisingStop_frame err s with same | same <;> rw [same]

@[simp]
theorem advertisingStop_gBtrcSt :
    (advertisingStop err s).2.gBtrcSt = s.gBtrcSt := by
  rcases advertisingStop_frame err s with same | same <;> rw [same]

@[simp]
theorem advertisingStop_gId : (advertisingStop err s).2.gId = s.gId := by
  rcases advertisingStop_frame err s with same | same <;> rw [same]

@[simp]
theorem advertisingStop_advWork :
    (advertisingStop err s).2.advWork = s.advWork := by
  rcases advertisingStop_frame err s with same | same <;> rw [same]

@[simp]
theorem advertisingStop_advModeSwitchWork :
    (advertisingStop err s).2.advModeSwitchWork = s.advModeSwitchWork := by
  rcases advertisingStop_frame err s with same | same <;> rw [same]

@[simp]
theorem advertisingStop_connections :
    (advertisingStop err s).2.connections = s.connections := by
  rcases advertisingStop_frame err s with same | same <;> rw [same]

@[simp]
theorem advertisingStop_callbacks :
    (advertisingStop err s).2.callbacks = s.callbacks := by
  rcases advertisingStop_frame err s with same | same <;> rw [same]

/-- Everything `connected` changes. -/
theorem connected_eq (dst : Option BtAddrLe) (code : UInt8) (s : BleState) :
    ∃ feData, connected dst code s =
      { s with
        isAdvRunning := false
        gRcLastPairedAddr := dst.getD s.gRcLastPairedAddr
        feData := feData
        gBtrcSt := if code = 0 then .connected else s.gBtrcSt
        advModeSwitchWork :=
          if code = btHciErrAdvTimeout then
            s.advModeSwitchWork.reschedule (kMsec (2 * 1000))
          else s.advModeSwitchWork } := by
  have timeoutIsError : btHciErrAdvTimeout ≠ 0 := by decide
  unfold connected
  cases dst with
  | none =>
      refine ⟨s.feData, ?_⟩
      by_cases zero : code = 0
      · simp [zero, timeoutIsError.symm]
      · by_cases timeout : code = btHciErrAdvTimeout <;>
          simp [zero, timeout, timeoutIsError, BleState.rescheduleModeSwitch]
  | some dstAddr =>
      refine ⟨(updateFeData dstAddr s).feData, ?_⟩
      by_cases zero : code = 0
      · simp [zero, timeoutIsError.symm, updateFeData]
      · by_cases timeout : code = btHciErrAdvTimeout <;>
          simp [zero, timeout, timeoutIsError, BleState.rescheduleModeSwitch,
            updateFeData]

theorem advertisingStop_zero (s : BleState) : (advertisingStop 0 s).1 = 0 := by
  unfold advertisingStop
  split
  · rfl
  · rw [if_neg (by decide)]

theorem tryAdvertisingStartBegin_stopped (isWakeup : Bool) (s : BleState) :
    (tryAdvertisingStartBegin isWakeup 0 s).isAdvRunning = false :=
  advertisingStop_stopped (advertisingStop_zero _)

theorem advModeSwitchHandlerBegin_stopped (s : BleState) :
    (advModeSwitchHandlerBegin 0 s).isAdvRunning = false :=
  advertisingStop_stopped (advertisingStop_zero _)

/-- What waits behind a `disconnected` still waits. -/
theorem BleState.ConnectedWaits.behind {dst : Option BtAddrLe}
    {callbacks : List Callback} (waiting : s.ConnectedWaits)
    (head : s.callbacks = .disconnected dst :: callbacks) :
    ({ s with callbacks } : BleState).ConnectedWaits := by
  obtain ⟨dst', err', member⟩ := waiting
  rw [head] at member
  rcases List.mem_cons.mp member with same | member
  · cases same
  · exact ⟨dst', err', member⟩

theorem BleState.ConnectedWaits.linkEnds {link : Nat} {dst : Option BtAddrLe}
    (waiting : s.ConnectedWaits) : (linkEnds link dst s).ConnectedWaits := by
  obtain ⟨dst', err', member⟩ := waiting
  exact ⟨dst', err', List.mem_append_left _ member⟩

theorem connectedWaits_advertisingEnds (dst : Option BtAddrLe) (code : UInt8)
    (s : BleState) : (advertisingEnds dst code s).ConnectedWaits :=
  ⟨dst, code, List.mem_append_right _ List.mem_cons_self⟩

@[simp]
theorem tryUnpair_gId (addr : BtAddrLe) : (tryUnpair err addr s).gId = s.gId := by
  unfold tryUnpair
  split <;> rfl

end Functions

/-- No callback, command or handler touches `g_id`. -/
theorem step_gId {s s' : BleSystem} {label : Label} (taken : Step s label s') :
    s'.ble.gId = s.ble.gId := by
  cases step_effect taken with
  | startBegin | stop | switchBegin => exact advertisingStop_gId
  | startEnd sleeper timeS asleep => simp [tryAdvertisingStartEnd_eq]
  | deletePaired unpairErr stopErr => simp [cmdDeletePaired]
  | advWork startErr queued free =>
      simp only [advertisingProcess, advertisingContinue]
      split
      · rfl
      · split <;> rfl
  | switchEnd asleep =>
      simp only [advModeSwitchHandlerEnd_eq]
      split <;> rfl
  | callback callback callbacks waits =>
      cases callback with
      | connected dst err =>
          obtain ⟨feData, same⟩ :=
            connected_eq dst err { s.ble with callbacks }
          simp [deliver, same]
      | disconnected dst => cases dst <;> rfl
  | securityChanged err hasLink =>
      simp only [securityChangedCb]
      split <;> rfl
  | timerExpires | advEnds | linkLost | bonded => rfl

/-- The system once Bluetooth is enabled and nothing has happened. -/
structure Booted (s : BleSystem) : Prop where
  isAdvRunning : s.ble.isAdvRunning = false
  gWakeupAdvMode : s.ble.gWakeupAdvMode = false
  gBtrcSt : s.ble.gBtrcSt = .disconnecte
  advWork : s.ble.advWork = false
  advModeSwitchWork : s.ble.advModeSwitchWork = .idle
  advertising : s.ble.advertising = none
  connections : s.ble.connections = []
  callbacks : s.ble.callbacks = []
  starting : s.starting = []
  switching : s.switching = false

/-- The address of some remote peer. -/
def samplePeer : BtAddrLe := ⟨0, #v[0x57, 0x11, 0x30, 0x92, 0xa0, 0xa8]⟩

/-- The system after boot, with one bond stored or none. -/
def bootedWith (bonds : List BtAddrLe) : BleSystem where
  ble :=
    { isAdvRunning := false
      gWakeupAdvMode := false
      gBtrcSt := .disconnecte
      gId := 1
      gRcLastPairedAddr := btAddrLeNone
      feData := #v[0x57, 0x11, 0x30]
      advWork := false
      advModeSwitchWork := .idle
      advertising := none
      bonds := fun _ => bonds
      connections := []
      callbacks := [] }
  starting := []
  switching := false

theorem bootedWith_booted (bonds : List BtAddrLe) : Booted (bootedWith bonds) :=
  ⟨rfl, rfl, rfl, rfl, rfl, rfl, rfl, rfl, rfl, rfl⟩

end BleRc

end SzpiSta
