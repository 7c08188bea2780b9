import SzpiSta.BleLink
import SzpiSta.RelayCycle

/-!
# The reboot looper on top of the radio

The looper and the advertising state machine run in different threads and meet in
two places: the looper reads `g_btrc_st`, and its wake-ups are calls of
`try_advertising_start`, which sleep while everything else goes on.  The device
is the two systems with just these connections.  Every run of the device is a
run of either part, so what holds of the parts holds here, and the poll that the
looper waits for can be traced back to a link.
-/

namespace SzpiSta

namespace RebootDevice

open TransitionPaths AutoReboot BleRc

/-- The parts, and the place of the looper's own call among the calls of
`try_advertising_start` that are asleep. -/
structure Device where
  looper : LooperSystem
  ble : BleSystem
  calling : Option Nat

/-- The steps: the commands of the looper, a step of its thread, the rest of its
call after the sleep, and everything else that happens to the radio. -/
inductive DeviceLabel where
  | start
  | stop
  | looper (btrcSt : BtrcSt) (action : Option LooperAction) (stopErr : Int)
  | callEnds (sleeper : Nat)
  | ble (label : BleRc.Label)
  deriving DecidableEq

/-- What a request of the looper does to the radio. -/
def requestLabels (stopErr : Int) :
    Option LooperAction → List BleRc.Label
  | some (.tryAdvertisingStart isWakeup timeS) =>
      [.startBegin isWakeup timeS stopErr]
  | some (.runSetSkV _) | none => []

/-- The call that the looper is in after a request. -/
def callOf (starting : List Int32) : Option LooperAction → Option Nat
  | some (.tryAdvertisingStart _ _) => some starting.length
  | some (.runSetSkV _) | none => none

/-- Whether a step of the radio is one that the looper's own thread takes. -/
def ownStep (calling : Option Nat) : BleRc.Label → Bool
  | .startEnd sleeper => calling = some sleeper
  | _ => false

/-- Where the looper's call is after another call has left the list. -/
def callAfter (calling : Option Nat) : BleRc.Label → Option Nat
  | .startEnd sleeper =>
      calling.map fun own => if sleeper < own then own - 1 else own
  | _ => calling

def deviceStep (staNetworkEn : Bool) : DeviceLabel → Device → Option Device
  | .start, d => some { d with looper := cmdAutoRebootStart d.looper }
  | .stop, d => some { d with looper := cmdAutoRebootStop d.looper }
  | .looper btrcSt action stopErr, d =>
      if d.calling = none ∧ btrcSt = d.ble.ble.gBtrcSt then
        (AutoReboot.step staNetworkEn (.looper btrcSt action) d.looper).bind
          fun looper =>
            (execute BleRc.step (requestLabels stopErr action) d.ble).map
              fun ble => ⟨looper, ble, callOf d.ble.starting action⟩
      else none
  | .callEnds sleeper, d =>
      if d.calling = some sleeper then
        (BleRc.step (.startEnd sleeper) d.ble).map fun ble =>
          { d with ble, calling := none }
      else none
  | .ble label, d =>
      if ownStep d.calling label then none
      else
        (BleRc.step label d.ble).map fun ble =>
          { d with ble, calling := callAfter d.calling label }

abbrev DeviceStep (staNetworkEn : Bool) :
    Device → DeviceLabel → Device → Prop :=
  FunctionStep (deviceStep staNetworkEn)

/-- The looper before its first start, on a radio in some state. -/
def bootedOn (ble : BleSystem) : Device := ⟨AutoReboot.booted, ble, none⟩

/-- A step of the device as a step of the looper. -/
def DeviceLabel.toLooper : DeviceLabel → List AutoReboot.Label
  | .start => [.start]
  | .stop => [.stop]
  | .looper btrcSt action _ => [.looper btrcSt action]
  | .callEnds _ | .ble _ => []

/-- A step of the device as steps of the radio. -/
def DeviceLabel.toBle : DeviceLabel → List BleRc.Label
  | .start | .stop => []
  | .looper _ action stopErr => requestLabels stopErr action
  | .callEnds sleeper => [.startEnd sleeper]
  | .ble label => [label]

section Parts

variable {staNetworkEn : Bool} {d d' : Device}

/-- Everything a step of the looper's thread does to the device. -/
theorem looper_step_parts {btrcSt : BtrcSt} {action : Option LooperAction}
    {stopErr : Int}
    (taken : DeviceStep staNetworkEn d (.looper btrcSt action stopErr) d') :
    btrcSt = d.ble.ble.gBtrcSt ∧
      AutoReboot.Step staNetworkEn d.looper (.looper btrcSt action) d'.looper ∧
      Path BleRc.Step d.ble (requestLabels stopErr action) d'.ble := by
  obtain ⟨⟨-, reads⟩, moves⟩ := Option.ite_none_right_eq_some.mp taken
  obtain ⟨looper, looperTaken, moves⟩ := Option.bind_eq_some_iff.mp moves
  obtain ⟨ble, requested, rfl⟩ := Option.map_eq_some_iff.mp moves
  exact ⟨reads, looperTaken, path_of_execute requested⟩

/-- Every run of the device is a run of the looper. -/
theorem simulates_looper (staNetworkEn : Bool) :
    Simulates (DeviceStep staNetworkEn) (AutoReboot.Step staNetworkEn)
      DeviceLabel.toLooper fun d looper => looper = d.looper := by
  rintro d label d' looper rfl taken
  cases label with
  | start =>
      cases taken
      exact ⟨_, path_singleton_iff.mpr rfl, rfl⟩
  | stop =>
      cases taken
      exact ⟨_, path_singleton_iff.mpr rfl, rfl⟩
  | looper btrcSt action stopErr =>
      obtain ⟨-, looperTaken, -⟩ := looper_step_parts taken
      exact ⟨_, path_singleton_iff.mpr looperTaken, rfl⟩
  | callEnds sleeper =>
      obtain ⟨-, moves⟩ := Option.ite_none_right_eq_some.mp taken
      obtain ⟨ble, -, rfl⟩ := Option.map_eq_some_iff.mp moves
      exact ⟨_, .nil _, rfl⟩
  | ble label =>
      obtain ⟨-, moves⟩ := Option.ite_none_left_eq_some.mp taken
      obtain ⟨ble, -, rfl⟩ := Option.map_eq_some_iff.mp moves
      exact ⟨_, .nil _, rfl⟩

/-- Every run of the device is a run of the radio. -/
theorem simulates_ble (staNetworkEn : Bool) :
    Simulates (DeviceStep staNetworkEn) BleRc.Step DeviceLabel.toBle
      fun d ble => ble = d.ble := by
  rintro d label d' ble rfl taken
  cases label with
  | start =>
      cases taken
      exact ⟨_, .nil _, rfl⟩
  | stop =>
      cases taken
      exact ⟨_, .nil _, rfl⟩
  | looper btrcSt action stopErr =>
      obtain ⟨-, -, requested⟩ := looper_step_parts taken
      exact ⟨_, requested, rfl⟩
  | callEnds sleeper =>
      obtain ⟨-, moves⟩ := Option.ite_none_right_eq_some.mp taken
      obtain ⟨ble, bleTaken, rfl⟩ := Option.map_eq_some_iff.mp moves
      exact ⟨_, path_singleton_iff.mpr bleTaken, rfl⟩
  | ble label =>
      obtain ⟨-, moves⟩ := Option.ite_none_left_eq_some.mp taken
      obtain ⟨ble, bleTaken, rfl⟩ := Option.map_eq_some_iff.mp moves
      exact ⟨_, path_singleton_iff.mpr bleTaken, rfl⟩

end Parts

section Sessions

variable {staNetworkEn : Bool} {d d' : Device} {label : DeviceLabel}
variable {labels : List DeviceLabel}

/-- Every peer that connects is known. -/
def KnownPeers (_ : Device) (label : DeviceLabel) : Prop :=
  label ≠ .ble (.advEnds none 0)

/-- The looper does not begin anew after a start, and every peer is known. -/
def SameSession (d : Device) (label : DeviceLabel) : Prop :=
  d.looper.looper ≠ .enter ∧ label ≠ .ble (.advEnds none 0)

instance : ∀ d label, Decidable (KnownPeers d label) := fun _ label =>
  inferInstanceAs (Decidable (label ≠ _))

instance : ∀ d label, Decidable (SameSession d label) := fun d label =>
  inferInstanceAs (Decidable (d.looper.looper ≠ _ ∧ label ≠ _))

/-- A session of the device is a session of its looper. -/
theorem simulates_looper_session (staNetworkEn : Bool) :
    Simulates (Restrict (DeviceStep staNetworkEn) SameSession)
      (Restrict (AutoReboot.Step staNetworkEn) NotEntering)
      DeviceLabel.toLooper fun d looper => looper = d.looper := by
  apply (simulates_looper staNetworkEn).restrict
  rintro d label looper looperAfter rfl ⟨inside, -⟩ path
  -- A step of the device is one step of the looper at most.
  cases label with
  | start | stop | looper =>
      have taken := path_singleton_iff.mp path
      exact path_singleton_iff.mpr ⟨taken, inside⟩
  | callEnds | ble =>
      obtain rfl := path_nil_iff.mp path
      exact .nil _

/-- The radio of a device never hears of an unknown peer. -/
theorem simulates_ble_known (staNetworkEn : Bool) :
    Simulates (Restrict (DeviceStep staNetworkEn) KnownPeers)
      (Restrict BleRc.Step KnownPeer)
      DeviceLabel.toBle fun d ble => ble = d.ble := by
  apply (simulates_ble staNetworkEn).restrict
  rintro d label ble bleAfter rfl known path
  apply path.restrict
  intro state bleLabel member
  cases label with
  | start | stop => cases member
  | looper btrcSt action stopErr =>
      cases action with
      | none => cases member
      | some request =>
          cases request with
          | runSetSkV v => cases member
          | tryAdvertisingStart isWakeup timeS =>
              obtain rfl := List.mem_singleton.mp member
              exact nofun
  | callEnds sleeper =>
      obtain rfl := List.mem_singleton.mp member
      exact nofun
  | ble label =>
      obtain rfl := List.mem_singleton.mp member
      exact fun unknown => known (congrArg DeviceLabel.ble unknown)

/-- A poll that the looper makes finds the status that the radio has. -/
theorem secured_of_foundSecured {ok : Device → DeviceLabel → Prop}
    (path : Path (Restrict (DeviceStep staNetworkEn) ok) d labels d')
    (found : FoundSecured (labels.flatMap DeviceLabel.toLooper)) :
    ∃ before after middle, labels = before ++ after ∧
      Path (Restrict (DeviceStep staNetworkEn) ok) d before middle ∧
      Path (Restrict (DeviceStep staNetworkEn) ok) middle after d' ∧
      middle.ble.ble.gBtrcSt = .securityLvOk := by
  obtain ⟨action, member⟩ := found
  obtain ⟨label, member, isPoll⟩ := List.mem_flatMap.mp member
  obtain ⟨before, after, rfl⟩ := List.append_of_mem member
  obtain ⟨middle, toMiddle, fromMiddle⟩ := path_append_iff.mp path
  obtain ⟨next, taken, -⟩ := path_cons_iff.mp fromMiddle
  refine ⟨before, label :: after, middle, rfl, toMiddle, fromMiddle, ?_⟩
  cases label with
  | start | stop => cases List.mem_singleton.mp isPoll
  | callEnds | ble => cases isPoll
  | looper btrcSt action stopErr =>
      cases List.mem_singleton.mp isPoll
      exact (looper_step_parts taken.1).1.symm

/-- A cycle begins only where the looper's flag is set. -/
theorem running_of_begins (taken : DeviceStep staNetworkEn d label d')
    (atTest : d.looper.looper = .loopTest)
    (begins : d'.looper.looper = .switchOff) : d.looper.gBtCkRunning = true := by
  obtain ⟨looper, path, rfl⟩ :=
    simulates_looper staNetworkEn _ _ _ _ rfl taken
  cases label with
  | start | stop | looper =>
      have looperTaken := path_singleton_iff.mp path
      exact running_of_beginsCycle looperTaken ⟨atTest, begins⟩
  | callEnds | ble =>
      rw [path_nil_iff.mp path, atTest] at begins
      cases begins

end Sessions

/-- In every run of the device from boot in which no peer is unknown, and for
every way the threads and the radio interleave: if the looper comes from one
cycle to the next of a session, which is to say without taking its semaphore
again, then at some moment in between the status was secured and the remote
control had a link, up or with its end about to be reported. -/
theorem cycles_have_link_between {staNetworkEn : Bool} {radio : BleSystem}
    {earlier later : List DeviceLabel} {d t t' : Device} {label : DeviceLabel}
    (booted : Booted radio)
    (run : Path (Restrict (DeviceStep staNetworkEn) KnownPeers)
      (bootedOn radio) earlier d)
    (begun : d.looper.looper = .switchOff)
    (session : Path (Restrict (DeviceStep staNetworkEn) SameSession) d later t)
    (again : DeviceStep staNetworkEn t label t')
    (atTest : t.looper.looper = .loopTest)
    (begins : t'.looper.looper = .switchOff) :
    ∃ before after middle, later = before ++ after ∧
      Path (DeviceStep staNetworkEn) d before middle ∧
      Path (DeviceStep staNetworkEn) middle after t ∧
      middle.ble.ble.gBtrcSt = .securityLvOk ∧
      middle.ble.ble.hasLink = true := by
  obtain ⟨looper, looperSession, rfl⟩ :=
    (simulates_looper_session staNetworkEn).path session rfl
  have found := foundSecured_of_session begun looperSession
    (running_of_begins again atTest begins) (by rw [atTest]; trivial)
  obtain ⟨before, after, middle, rfl, toMiddle, fromMiddle, secured⟩ :=
    secured_of_foundSecured session found
  have known : Path (Restrict (DeviceStep staNetworkEn) KnownPeers)
      (bootedOn radio) (earlier ++ before) middle :=
    run.append (toMiddle.weaken fun _ _ inside => inside.2)
  obtain ⟨ble, bleRun, rfl⟩ := (simulates_ble_known staNetworkEn).path known rfl
  have kept := linkKept_of_run booted bleRun
  have isUp : middle.ble.ble.gBtrcSt ≠ .disconnecte := by
    rw [secured]
    exact nofun
  exact ⟨before, after, middle, rfl, toMiddle.unrestrict,
    fromMiddle.unrestrict, secured, kept.reported isUp⟩

/-- Steps of the looper's thread that make no request, while the connection is
secure. -/
def calm (count : Nat) : List DeviceLabel :=
  List.replicate count (.looper .securityLvOk none 0)

/-- A peer connects, and the looper begins its first cycle. -/
def toFirstCycle : List DeviceLabel :=
  connectsSecurely.map .ble ++ .start :: calm 3

/-- A whole cycle: the wake-up is a call that sleeps, and the first poll finds
the connection. -/
def secureCycle : List DeviceLabel :=
  .looper .securityLvOk (some (.runSetSkV 0)) 0 :: calm 7 ++
    .looper .securityLvOk (some (.runSetSkV 1)) 0 :: calm 7 ++
    .looper .securityLvOk (some (.tryAdvertisingStart true 10)) 0 ::
    .callEnds 0 :: calm 34

/-- Where labels lead that can be executed. -/
def reached (labels : List DeviceLabel) (d : Device) : Device :=
  (execute (deviceStep true) labels d).getD d

def beforeCycle : Device := reached toFirstCycle (bootedOn (bootedWith []))

theorem secure_cycle_has_link_between :
    ∃ before after, ∃ middle : Device, secureCycle = before ++ after ∧
      middle.ble.ble.gBtrcSt = .securityLvOk ∧
      middle.ble.ble.hasLink = true := by
  have run : Path (Restrict (DeviceStep true) KnownPeers)
      (bootedOn (bootedWith [])) toFirstCycle beforeCycle :=
    path_restrict_of_execute rfl
  have session : Path (Restrict (DeviceStep true) SameSession) beforeCycle
      secureCycle (reached secureCycle beforeCycle) :=
    path_restrict_of_execute rfl
  have again : DeviceStep true (reached secureCycle beforeCycle)
      (.looper .securityLvOk none 0) _ := rfl
  obtain ⟨before, after, middle, split, -, -, secured, link⟩ :=
    cycles_have_link_between (bootedWith_booted []) run rfl session again rfl rfl
  exact ⟨before, after, middle, split, secured, link⟩

end RebootDevice

end SzpiSta
