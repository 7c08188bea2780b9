import Mathlib.Data.Fintype.Basic
import Mathlib.Data.Finset.Card
import SzpiSta.BleInit
import SzpiSta.EventQueue

/-!
# What the firmware does from boot on

The messages under way are those that a sender has filled in, those in the list,
and the one in the hand of the main thread.  No step loses or doubles one, so for
each action of `evt_handle` those done and those still under way are those asked
for.  As the firmware is built, `main` asks for one action before its loop, and
after that only connect results ask for any; nothing opens the websocket.
-/

namespace SzpiSta

namespace EventLoop

open TransitionPaths

/-- How many messages of a kind a step of `evt_send` fills in. -/
def Label.entered {Thread : Type} (kind : EvtMsg → Bool) : Label Thread → Nat
  | .evtSend _ type len data => (kind ⟨type, len, data⟩).toNat
  | _ => 0

/-- The sender has filled in a message of this kind, and not appended it. -/
def SendPc.holds (kind : EvtMsg → Bool) : SendPc → Bool
  | .filled msg => kind msg
  | .idle | .appended => false

theorem card_eq_erase {α : Type} [DecidableEq α] (threads : Finset α)
    (thread : α) :
    threads.card =
      (threads.erase thread).card + (decide (thread ∈ threads)).toNat := by
  by_cases member : thread ∈ threads
  · rw [decide_eq_true member]
    exact (Finset.card_erase_add_one member).symm
  · rw [decide_eq_false member, Finset.erase_eq_of_notMem member]
    rfl

theorem countP_single {α : Type} (kind : α → Bool) (single : α) :
    [single].countP kind = (kind single).toNat := by
  cases isKind : kind single <;> simp [isKind]

section UnderWay

variable {Thread : Type} [DecidableEq Thread] [Fintype Thread]

/-- The senders that have filled in a message of a kind. -/
def EvtSystem.filling (s : EvtSystem Thread) (kind : EvtMsg → Bool) :
    Finset Thread :=
  Finset.univ.filter fun thread => (s.senders thread).holds kind

/-- How many messages of a kind have been filled in and not dispatched. -/
def EvtSystem.underWay (s : EvtSystem Thread) (kind : EvtMsg → Bool) : Nat :=
  (s.filling kind).card + s.pending.countP kind

variable {staNetworkEn : Bool} {s s' : EvtSystem Thread} {label : Label Thread}
variable {kind : EvtMsg → Bool}

omit [DecidableEq Thread] in
theorem mem_filling {thread : Thread} :
    thread ∈ s.filling kind ↔ (s.senders thread).holds kind := by
  simp [EvtSystem.filling]

/-- Only the sender that moves makes a difference. -/
theorem card_filling_update {thread : Thread} {before pc : SendPc}
    (stands : s.senders thread = before)
    (moved : s'.senders = Function.update s.senders thread pc) :
    (s'.filling kind).card + (before.holds kind).toNat =
      (s.filling kind).card + (pc.holds kind).toNat := by
  have others : (s'.filling kind).erase thread =
      (s.filling kind).erase thread := by
    ext other
    rw [Finset.mem_erase, Finset.mem_erase, mem_filling, mem_filling, moved]
    refine and_congr_right fun apart => ?_
    rw [Function.update_of_ne apart]
  rw [card_eq_erase (s'.filling kind) thread,
    card_eq_erase (s.filling kind) thread, others]
  simp only [mem_filling, moved, Function.update_self, stands,
    Bool.decide_eq_true]
  omega

/-- A message that is filled in is held until it is appended. -/
theorem filling_step (stepped : Step staNetworkEn s label s') :
    (s.filling kind).card + label.entered kind =
      label.appended.toList.countP kind + (s'.filling kind).card := by
  have same (senders : s'.senders = s.senders) :
      s'.filling kind = s.filling kind := by
    simp only [EvtSystem.filling, senders]
  have moves {thread : Thread} {before pc : SendPc}
      (stands : s.senders thread = before)
      (moved : s'.senders = Function.update s.senders thread pc) :
      (s'.filling kind).card + (before.holds kind).toNat =
        (s.filling kind).card + (pc.holds kind).toNat :=
    card_filling_update stands moved
  generalize senders : s'.senders = after at same moves
  cases step_effect stepped with
  | evtSend thread type len data idle =>
      have moved := moves idle senders.symm
      simp only [SendPc.holds, Bool.toNat_false] at moved
      simp only [Label.entered, Label.appended, Option.toList, List.countP_nil]
      omega
  | append thread msg filled =>
      have moved := moves filled senders.symm
      simp only [SendPc.holds, Bool.toNat_false] at moved
      simp only [Label.entered, Label.appended, Option.toList, countP_single]
      omega
  | eventfdWrite thread appended =>
      have moved := moves appended senders.symm
      simp only [SendPc.holds, Bool.toNat_false] at moved
      simp only [Label.entered, Label.appended, Option.toList, List.countP_nil]
      omega
  | pollReturns | socketLost | received | eventfdRead | empty | taken | dispatch
  | sleepEnds => exact Nat.add_comm _ _

/-- No step loses or doubles a message. -/
theorem underWay_step (kind : EvtMsg → Bool)
    (stepped : Step staNetworkEn s label s') :
    s.underWay kind + label.entered kind =
      label.dispatched.toList.countP kind + s'.underWay kind := by
  have filling : (s.filling kind).card + label.entered kind =
      label.appended.toList.countP kind + (s'.filling kind).card :=
    filling_step stepped
  have pending := congrArg (List.countP kind) (pending_step stepped)
  rw [List.countP_append, List.countP_append] at pending
  unfold EvtSystem.underWay
  omega

end UnderWay

end EventLoop

namespace BleInit

open TransitionPaths BleRc EventLoop

/-- The descriptors without a websocket. -/
def noSocket : GFds := startedLoop.gFds

/-- The message asks for this action. -/
def asksFor (staNetworkEn : Bool) (action : EvtAction) (msg : EvtMsg) : Bool :=
  evtAction staNetworkEn noSocket msg = some action

/-- What `main` sends before its loop. -/
def bootMessage (staNetworkEn : Bool) : EvtMsg :=
  ⟨if staNetworkEn then evtWifiStaStart else evtBleStart, 0, 0⟩

/-- The event loop when `main` has filled in its message. -/
structure Booting {Thread : Type} (staNetworkEn : Bool) (main : Thread)
    (s : EvtSystem Thread) : Prop where
  evtList : s.evtList = []
  socket : s.gFds.socket < 0
  polling : s.main = .polling
  filled : s.senders main = .filled (bootMessage staNetworkEn)
  others : ∀ other, other ≠ main → s.senders other = .idle

/-- The timer thread is not started, and the other calls of `evt_send` are those
of `main` and of `wifi_event_handler`, which is built with the station only. -/
def AsBuilt {Thread : Type} (staNetworkEn : Bool) : Label Thread → Prop
  | .wifiEvent _ _ => staNetworkEn
  | .loop (.evtSend _ _ _ _) => False
  | _ => True

/-- A connect result. -/
def Label.isConnect {Thread : Type} : Label Thread → Bool
  | .wifiEvent _ mgmtEvent => mgmtEvent = .wifiConnectResult
  | _ => false

/-- The step of the event loop takes this action. -/
def takesAction {Thread : Type} (action : EvtAction) :
    EventLoop.Label Thread → Bool
  | .dispatch _ taken => taken = some action
  | _ => false

/-- The step takes this action; that of `ble_rc_init` is taken at its end. -/
def Label.takes {Thread : Type} (action : EvtAction) : Label Thread → Bool
  | .loop label => takesAction action label
  | .initEnd _ _ _ => action = .bleRcInit
  | _ => false

/-- The step has to do with the websocket. -/
def Label.usesSocket {Thread : Type} : Label Thread → Bool
  | .loop (.wscliRecv _) => true
  | .loop (.dispatch _ (some (.wscliPing _))) => true
  | _ => false

section AsBuilt

variable {Thread : Type} [DecidableEq Thread]
variable {staNetworkEn configSettings : Bool} {s s' : StaSystem Thread}
variable {label : Label Thread} {action : EvtAction}

/-- There is no websocket, and nothing is received from one. -/
structure NoSocket (s : EvtSystem Thread) : Prop where
  socket : s.gFds.socket < 0
  notReceiving : ∀ revents, s.main ≠ .receiving revents

omit [DecidableEq Thread] in
/-- Without a websocket the descriptors make no difference. -/
theorem evtAction_noSocket {gFds : GFds} (socket : gFds.socket < 0)
    (msg : EvtMsg) :
    evtAction staNetworkEn gFds msg = evtAction staNetworkEn noSocket msg := by
  have neither : ¬ gFds.socket > 0 := by omega
  have noneHere : ¬ noSocket.socket > 0 := by decide
  simp only [evtAction, neither, noneHere, and_false, if_false]

omit [DecidableEq Thread] in
theorem not_ping {gFds : GFds} (socket : gFds.socket < 0) {msg : EvtMsg}
    {wsSock : Int} :
    evtAction staNetworkEn gFds msg ≠ some (.wscliPing wsSock) := by
  have neither : ¬ gFds.socket > 0 := by omega
  unfold evtAction
  simp only [neither, and_false, if_false]
  split
  · nofun
  split
  · split <;> nofun
  split <;> nofun

theorem NoSocket.step {eventLabel : EventLoop.Label Thread}
    {before after : EvtSystem Thread} (noSocket : NoSocket before)
    (stepped : EventLoop.Step staNetworkEn before eventLabel after) :
    NoSocket after := by
  have checked (revents : UInt16) (other : UInt16) :
      checkEventfd before.gFds revents ≠ .receiving other := by
    rcases checkEventfd_cases before.gFds revents with ⟨same, -⟩ | same
    · rw [same]
      nofun
    · rw [same]
      nofun
  refine ⟨?_, fun revents => ?_⟩
  · cases step_effect stepped with
    | socketLost => exact Int.negSucc_lt_zero 0
    | evtSend | append | eventfdWrite | pollReturns | received | eventfdRead |
        empty | taken | dispatch | sleepEnds =>
        exact noSocket.socket
  · cases step_effect stepped with
    | evtSend | append | eventfdWrite => exact noSocket.notReceiving revents
    | pollReturns answer polling allowed =>
        have none : ¬ (staNetworkEn = true ∧ 0 ≤ before.gFds.socket) := by
          rintro ⟨-, valid⟩
          exact Int.not_le.mpr noSocket.socket valid
        dsimp only
        unfold afterPoll
        rw [if_neg none]
        split
        · nofun
        split
        · nofun
        · exact checked _ _
    | socketLost => nofun
    | received rLen eventRevents receiving =>
        exact (noSocket.notReceiving _ receiving).elim
    | eventfdRead | empty | taken | dispatch | sleepEnds => nofun

/-- What is dispatched is taken as the action it asks for, and none is a ping. -/
theorem dispatched_asksFor {eventLabel : EventLoop.Label Thread}
    {before after : EvtSystem Thread} (socket : before.gFds.socket < 0)
    (stepped : EventLoop.Step staNetworkEn before eventLabel after) :
    eventLabel.dispatched.toList.countP (asksFor staNetworkEn action) =
      (takesAction action eventLabel).toNat := by
  cases step_effect stepped with
  | dispatch msg handling =>
      simp only [EventLoop.Label.dispatched, Option.toList, countP_single,
        asksFor, takesAction, evtAction_noSocket socket]
  | evtSend | append | eventfdWrite | pollReturns | socketLost | received |
      eventfdRead | empty | taken | sleepEnds => rfl

theorem not_usesSocket {eventLabel : EventLoop.Label Thread}
    {before after : EvtSystem Thread} (noSocket : NoSocket before)
    (stepped : EventLoop.Step staNetworkEn before eventLabel after) :
    (Label.loop eventLabel).usesSocket = false := by
  cases step_effect stepped with
  | dispatch msg handling =>
      have noPing {wsSock : Int} :
          evtAction staNetworkEn before.gFds msg ≠ some (.wscliPing wsSock) :=
        not_ping noSocket.socket
      cases asked : evtAction staNetworkEn before.gFds msg with
      | none => rfl
      | some taken =>
          cases taken with
          | wscliPing wsSock => exact (noPing asked).elim
          | staTryconnect | bleRcInit => rfl
  | socketLost rLen eventRevents receiving | received rLen eventRevents receiving =>
      exact (noSocket.notReceiving _ receiving).elim
  | evtSend | append | eventfdWrite | pollReturns | eventfdRead | empty | taken |
      sleepEnds => rfl

variable [Fintype Thread]

/-- What each step of the firmware does to the messages under way. -/
theorem underWay_asked (action : EvtAction)
    (taken : Step staNetworkEn configSettings s label s')
    (built : AsBuilt staNetworkEn label) (noSocket : NoSocket s.events) :
    s.events.underWay (asksFor staNetworkEn action) +
        (if label.isConnect then
          (asksFor staNetworkEn action ⟨evtWifiConnected, 0, 0⟩).toNat else 0) =
      (label.takes action).toNat +
        s'.events.underWay (asksFor staNetworkEn action) ∧
      NoSocket s'.events ∧ label.usesSocket = false := by
  have taken : step staNetworkEn configSettings label s = some s' := taken
  cases label with
  | wifiEvent thread mgmtEvent =>
      cases mgmtEvent with
      | wifiConnectResult =>
          obtain ⟨events, stepped, rfl⟩ := Option.map_eq_some_iff.mp taken
          have moved := underWay_step (asksFor staNetworkEn action) stepped
          exact ⟨moved, noSocket.step stepped, rfl⟩
      | wifiDisconnectResult | other =>
          cases taken
          exact ⟨Nat.add_comm _ _, noSocket, rfl⟩
  | loop eventLabel =>
      obtain ⟨-, taken⟩ := Option.ite_none_left_eq_some.mp taken
      obtain ⟨events, stepped, rfl⟩ := Option.map_eq_some_iff.mp taken
      have moved := underWay_step (asksFor staNetworkEn action) stepped
      have notEntered : eventLabel.entered (asksFor staNetworkEn action) = 0 := by
        cases eventLabel <;> first | rfl | exact built.elim
      rw [dispatched_asksFor noSocket.socket stepped, notEntered] at moved
      exact ⟨moved, noSocket.step stepped, not_usesSocket noSocket stepped⟩
  | initBegin msg idRet =>
      obtain ⟨-, ⟨⟩⟩ := Option.ite_none_right_eq_some.mp taken
      exact ⟨Nat.add_comm _ _, noSocket, rfl⟩
  | initEnd msg enableRet loaded =>
      obtain ⟨-, taken⟩ := Option.ite_none_right_eq_some.mp taken
      obtain ⟨events, stepped, rfl⟩ := Option.map_eq_some_iff.mp taken
      have moved := underWay_step (asksFor staNetworkEn action) stepped
      rw [dispatched_asksFor noSocket.socket stepped] at moved
      have sameAction : takesAction action
          (.dispatch msg (some .bleRcInit) : EventLoop.Label Thread) =
            decide (action = .bleRcInit) := by
        simp [takesAction, eq_comm]
      rw [sameAction] at moved
      exact ⟨moved, noSocket.step stepped, rfl⟩
  | ble label =>
      obtain ⟨system, -, rfl⟩ := Option.map_eq_some_iff.mp taken
      exact ⟨Nat.add_comm _ _, noSocket, rfl⟩

/-- What holds in every run from boot on. -/
structure Accounted (staNetworkEn : Bool) (history : List (Label Thread))
    (s : StaSystem Thread) : Prop where
  asked : ∀ action,
    history.countP (Label.takes action) +
        s.events.underWay (asksFor staNetworkEn action) =
      (asksFor staNetworkEn action (bootMessage staNetworkEn)).toNat +
        history.countP Label.isConnect *
          (asksFor staNetworkEn action ⟨evtWifiConnected, 0, 0⟩).toNat
  noSocket : NoSocket s.events
  silent : ∀ label ∈ history, label.usesSocket = false

theorem Accounted.step {history : List (Label Thread)}
    (accounted : Accounted staNetworkEn history s)
    (taken : Restrict (Step staNetworkEn configSettings)
      (fun _ => AsBuilt staNetworkEn) s label s') :
    Accounted staNetworkEn (history ++ [label]) s' := by
  obtain ⟨taken, built⟩ := taken
  constructor
  · intro action
    obtain ⟨moved, -, -⟩ := underWay_asked action taken built
      accounted.noSocket
    have before := accounted.asked action
    rw [List.countP_append, List.countP_append, countP_single, countP_single]
    cases connect : label.isConnect with
    | false =>
        rw [connect, if_neg Bool.false_ne_true] at moved
        rw [Bool.toNat_false, Nat.add_zero]
        omega
    | true =>
        rw [connect, if_pos rfl] at moved
        rw [Bool.toNat_true, Nat.succ_mul]
        omega
  · exact (underWay_asked .bleRcInit taken built
      accounted.noSocket).2.1
  · intro other member
    rcases List.mem_append.mp member with earlier | now
    · exact accounted.silent other earlier
    · obtain rfl := List.mem_singleton.mp now
      exact (underWay_asked .bleRcInit taken built
        accounted.noSocket).2.2

theorem accounted_at_boot {main : Thread}
    (booting : Booting staNetworkEn main s.events) :
    Accounted staNetworkEn [] s := by
  refine ⟨fun action => ?_, ⟨booting.socket, ?_⟩, List.forall_mem_nil _⟩
  · have nobodyElse :
        (s.events.filling (asksFor staNetworkEn action)).erase main = ∅ := by
      ext other
      simp only [Finset.mem_erase, mem_filling, Finset.notMem_empty, iff_false]
      rintro ⟨apart, holds⟩
      rw [booting.others other apart] at holds
      cases holds
    have pending : s.events.pending = [] := by
      rw [EvtSystem.pending, booting.polling, booting.evtList]
      rfl
    rw [EvtSystem.underWay, pending, card_eq_erase _ main, nobodyElse]
    simp [mem_filling, booting.filled, SendPc.holds]
  · rw [booting.polling]
    intro revents same
    cases same

end AsBuilt

/-- In every run of the firmware as it is built, from boot on: Bluetooth has been
initialised, or is about to be, exactly once for each connect result, and without
the station once for the message of `main`; a connection to Wi-Fi is tried once,
or about to be, and never again; the descriptor that `poll` is given for the
websocket is negative, and the websocket is neither read nor pinged. -/
theorem actions_from_boot {Thread : Type} [DecidableEq Thread] [Fintype Thread]
    {staNetworkEn configSettings : Bool} {main : Thread}
    {first s : StaSystem Thread} {labels : List (Label Thread)}
    (booting : Booting staNetworkEn main first.events)
    (run : Path (Restrict (Step staNetworkEn configSettings)
      fun _ => AsBuilt staNetworkEn) first labels s) :
    labels.countP (Label.takes .bleRcInit) +
          s.events.underWay (asksFor staNetworkEn .bleRcInit) =
        labels.countP Label.isConnect + (if staNetworkEn then 0 else 1) ∧
      labels.countP (Label.takes .staTryconnect) +
          s.events.underWay (asksFor staNetworkEn .staTryconnect) =
        (if staNetworkEn then 1 else 0) ∧
      s.events.gFds.socket < 0 ∧
      ∀ label ∈ labels, label.usesSocket = false := by
  have accounted : Accounted staNetworkEn labels s :=
    run.historyInvariant (Accounted staNetworkEn)
      (fun _ _ _ _ accounted taken => accounted.step taken)
      (accounted_at_boot booting)
  have connects : ∀ action,
      (asksFor staNetworkEn action ⟨evtWifiConnected, 0, 0⟩).toNat =
        if action = .bleRcInit then 1 else 0 := by
    intro action
    cases action <;> rfl
  have boots : ∀ action,
      (asksFor staNetworkEn action (bootMessage staNetworkEn)).toNat =
        if action = (if staNetworkEn then .staTryconnect else .bleRcInit) then 1
        else 0 := by
    intro action
    cases staNetworkEn <;> cases action <;> rfl
  refine ⟨?_, ?_, accounted.noSocket.socket, accounted.silent⟩
  · rw [accounted.asked, connects, boots, if_pos rfl, Nat.mul_one, Nat.add_comm]
    cases staNetworkEn <;> rfl
  · have other : ¬ EvtAction.staTryconnect = .bleRcInit := nofun
    rw [accounted.asked, connects, boots, if_neg other, Nat.mul_zero,
      Nat.add_zero]
    cases staNetworkEn <;> rfl

section TwoThreads

/-- The threads that send messages. -/
inductive BootThread where
  | main
  | network
  deriving DecidableEq

instance : Fintype BootThread :=
  ⟨{.main, .network}, fun thread => by cases thread <;> decide⟩

/-- The program when `main` is about to append its message, with the thread of the
network events. -/
def booted : StaSystem BootThread where
  events :=
    { evtList := []
      counter := 0
      gFds := noSocket
      senders := fun thread =>
        if thread = .main then .filled (bootMessage true) else .idle
      main := .polling }
  host := atBoot.host
  enabling := false

/-- The station is started, and a connect result arrives. -/
def connecting : List (Label BootThread) :=
  let msg : EvtMsg := ⟨evtWifiConnected, 0, 0⟩
  [.loop (.append .main (bootMessage true)), .loop (.eventfdWrite .main),
    .loop (.pollReturns ⟨1, pollIn, 0⟩), .loop .eventfdRead,
    .loop (.slistGet (some (bootMessage true))),
    .loop (.dispatch (bootMessage true) (some .staTryconnect)),
    .wifiEvent .network .wifiConnectResult, .loop (.append .network msg),
    .loop (.slistGet (some msg)), .initBegin msg 1,
    .initEnd msg 0 fun _ => []]

instance {Thread : Type} (staNetworkEn : Bool) :
    ∀ label : Label Thread, Decidable (AsBuilt staNetworkEn label)
  | .wifiEvent _ _ => inferInstanceAs (Decidable (staNetworkEn = true))
  | .loop (.evtSend _ _ _ _) => isFalse id
  | .loop (.append _ _) | .loop (.eventfdWrite _) | .loop (.pollReturns _) |
    .loop (.wscliRecv _) | .loop .eventfdRead | .loop (.slistGet _) |
    .loop (.dispatch _ _) | .loop .sleepEnds => isTrue trivial
  | .initBegin _ _ | .initEnd _ _ _ | .ble _ => isTrue trivial

/-- Bluetooth is initialised once, and nothing is left to be done. -/
theorem one_connect_one_init : ∃ s,
    Path (Restrict (Step true true) fun _ => AsBuilt true) booted connecting s ∧
      s.events.underWay (asksFor true .bleRcInit) = 0 ∧
      s.events.underWay (asksFor true .staTryconnect) = 0 ∧
      s.events.gFds.socket < 0 := by
  have booting : Booting true BootThread.main booted.events := by
    refine ⟨rfl, by decide, rfl, rfl, fun other apart => ?_⟩
    exact if_neg apart
  obtain ⟨s, run⟩ : ∃ s, Path (Restrict (Step true true) fun _ => AsBuilt true)
      booted connecting s := ⟨_, path_restrict_of_execute rfl⟩
  obtain ⟨inits, tries, noSocket, -⟩ := actions_from_boot booting run
  have initsOnce : connecting.countP (Label.takes .bleRcInit) = 1 := by decide
  have connectsOnce : connecting.countP Label.isConnect = 1 := by decide
  have triesOnce : connecting.countP (Label.takes .staTryconnect) = 1 := by decide
  rw [initsOnce, connectsOnce, if_pos rfl] at inits
  rw [triesOnce, if_pos rfl] at tries
  exact ⟨s, run, by omega, by omega, noSocket⟩

end TwoThreads

end BleInit

end SzpiSta
