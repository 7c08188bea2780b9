import SzpiSta.BleRc

/-!
# Does the remote recover by itself?

Here commands, handlers and callbacks run without interruption, and every call
of the stack succeeds.  A callback that reports a failed connection clears the
flag and, unless the error is a timeout, arms nothing, so the remote can fall
silent for good.  In every run in which such a callback comes only while the mode
switch is armed, it does not.
-/

namespace SzpiSta

namespace BleRc

open TransitionPaths

/-- The steps that run without interruption. -/
inductive AtomicLabel where
  | tryAdvertisingStart (isWakeup : Bool) (timeS : Int32)
  | advWork
  | advModeSwitchHandler
  | timerExpires
  | callback
  | securityChanged (err : Int)
  | advEnds (dst : Option BtAddrLe) (err : UInt8)
  | linkLost (link : Nat)
  | bonded (addr : BtAddrLe)

/-- The parts of such a step, one after the other. -/
def AtomicLabel.parts : AtomicLabel → List Label
  | .tryAdvertisingStart isWakeup timeS =>
      [.startBegin isWakeup timeS 0, .startEnd 0]
  | .advWork => [.advWork 0]
  | .advModeSwitchHandler => [.switchBegin 0, .switchEnd]
  | .timerExpires => [.timerExpires]
  | .callback => [.callback]
  | .securityChanged err => [.securityChanged err]
  | .advEnds dst err => [.advEnds dst err]
  | .linkLost link => [.linkLost link]
  | .bonded addr => [.bonded addr]

def atomicStep (label : AtomicLabel) : BleSystem → Option BleSystem :=
  execute step label.parts

abbrev AtomicStep : BleSystem → AtomicLabel → BleSystem → Prop :=
  FunctionStep atomicStep

/-- The controller is advertising, or something is armed that will start it. -/
def Recoverable (s : BleState) : Prop :=
  s.advertising.isSome ∨ s.advWork = true ∨ s.advModeSwitchWork.Pending

/-- No connection is live and no connection callback waits. -/
def NoLink (s : BleState) : Prop := s.connections = [] ∧ s.callbacks = []

/-- Some callback that reports the end of a connection waits. -/
def DisconnectWaits (callbacks : List Callback) : Prop :=
  ∃ dst, Callback.disconnected dst ∈ callbacks

/-- A callback that reports a failed connection, other than a timeout, comes
while the mode switch is armed.  A callback that reports the end of a connection
knows its address. -/
def ArmsOrFindsArmed (s : BleSystem) (label : AtomicLabel) : Prop :=
  label = .callback → ∀ callback callbacks, s.ble.callbacks = callback :: callbacks →
    match callback with
    | .connected _ err => err ≠ 0 → err ≠ btHciErrAdvTimeout →
        s.ble.advModeSwitchWork.Pending
    | .disconnected dst => dst.isSome

/-- What links the flag and the connection state to what is still to come. -/
structure Accounted (s : BleState) : Prop where
  /-- Who set the flag is on air, or reports soon. -/
  onAir : s.isAdvRunning = true → s.advertising.isSome ∨ s.ConnectedWaits
  /-- A connected state ends with a callback. -/
  up : s.gBtrcSt ≠ .disconnecte →
    s.connections ≠ [] ∨ DisconnectWaits s.callbacks
  /-- A connection reported established is live, or its end is reported later. -/
  announced : ∀ dst earlier later,
    s.callbacks = earlier ++ .connected dst 0 :: later →
      s.connections ≠ [] ∨ DisconnectWaits later

/-- The invariant. -/
structure Recovers (s : BleSystem) : Prop where
  awake : s.starting = [] ∧ s.switching = false
  accounted : Accounted s.ble
  recoverable : NoLink s.ble → Recoverable s.ble

section Steps

variable {s s' : BleSystem}

theorem not_disconnectWaits_nil : ¬ DisconnectWaits [] := by
  rintro ⟨dst, member⟩
  cases member

/-- A step of one part is that part. -/
theorem step_of_single {part : Label}
    (taken : execute step [part] s = some s') : Step s part s' :=
  path_singleton_iff.mp (path_of_execute taken)

/-- The two parts of `try_advertising_start`, the stop succeeding. -/
def tryAdvertisingStart (isWakeup : Bool) (timeS : Int32) (s : BleState) :
    BleState :=
  tryAdvertisingStartEnd timeS (tryAdvertisingStartBegin isWakeup 0 s)

/-- The two parts of `adv_mode_switch_handler`, the stop succeeding. -/
def advModeSwitchHandler (s : BleState) : BleState :=
  advModeSwitchHandlerEnd (advModeSwitchHandlerBegin 0 s)

/-- The state in which the work queue runs the mode switch. -/
def BleState.takeModeSwitch (s : BleState) : BleState :=
  { s with advModeSwitchWork := s.advModeSwitchWork.take }

theorem atomic_start_eq {isWakeup : Bool} {timeS : Int32}
    (awake : s.starting = [])
    (taken : AtomicStep s (.tryAdvertisingStart isWakeup timeS) s') :
    s' = { s with ble := tryAdvertisingStart isWakeup timeS s.ble } := by
  rcases s with ⟨ble, starting, switching⟩
  obtain rfl : starting = [] := awake
  obtain ⟨middle, begins, ends⟩ := path_cons_iff.mp (path_of_execute taken)
  cases begins
  cases path_singleton_iff.mp ends
  rfl

theorem atomic_switch_eq (awake : s.switching = false)
    (taken : AtomicStep s .advModeSwitchHandler s') :
    s' = { s with ble := advModeSwitchHandler s.ble.takeModeSwitch } := by
  obtain ⟨middle, begins, ends⟩ := path_cons_iff.mp (path_of_execute taken)
  cases step_effect begins
  cases step_effect (path_singleton_iff.mp ends)
  rw [awake]
  rfl

/-- What a successful stop leaves accounted for. -/
theorem Accounted.stopped {ble : BleState} (accounted : Accounted ble) :
    Accounted (advertisingStop 0 ble).2 := by
  have silent := advertisingStop_stopped (advertisingStop_zero ble)
  refine ⟨fun running => ?_, ?_, ?_⟩
  · rw [silent] at running
    cases running
  · simpa using accounted.up
  · simpa using accounted.announced

/-- The start submits `adv_work`, since nothing is running after the stop. -/
theorem Recovers.start {isWakeup : Bool} {timeS : Int32}
    (awake : s.starting = [] ∧ s.switching = false)
    (accounted : Accounted s.ble)
    (taken : AtomicStep s (.tryAdvertisingStart isWakeup timeS) s') :
    Recovers s' := by
  obtain rfl := atomic_start_eq awake.1 taken
  have begun : Accounted (tryAdvertisingStartBegin isWakeup 0 s.ble) := by
    apply Accounted.stopped
    exact ⟨accounted.onAir, accounted.up, accounted.announced⟩
  have silent := tryAdvertisingStartBegin_stopped isWakeup s.ble
  unfold tryAdvertisingStart
  rw [tryAdvertisingStartEnd_eq]
  refine ⟨awake, ⟨begun.onAir, begun.up, begun.announced⟩, fun _ => ?_⟩
  exact .inr (.inl (by simp [silent]))

theorem Recovers.switch (recovers : Recovers s)
    (taken : AtomicStep s .advModeSwitchHandler s') : Recovers s' := by
  obtain rfl := atomic_switch_eq recovers.awake.2 taken
  have accounted := recovers.accounted
  have begun :
      Accounted (advModeSwitchHandlerBegin 0 s.ble.takeModeSwitch) := by
    apply Accounted.stopped
    exact ⟨accounted.onAir, accounted.up, accounted.announced⟩
  have silent := advModeSwitchHandlerBegin_stopped s.ble.takeModeSwitch
  unfold advModeSwitchHandler
  rw [advModeSwitchHandlerEnd_eq]
  split
  case isTrue down =>
    refine ⟨recovers.awake, ⟨begun.onAir, begun.up, begun.announced⟩,
      fun _ => ?_⟩
    exact .inr (.inl (by simp [silent]))
  case isFalse up =>
    refine ⟨recovers.awake, ⟨begun.onAir, begun.up, begun.announced⟩, ?_⟩
    rintro ⟨noneLive, noneWaits⟩
    rcases begun.up up with live | waits
    · exact (live noneLive).elim
    · have noneWaits : (advModeSwitchHandlerBegin 0
          s.ble.takeModeSwitch).callbacks = [] := noneWaits
      rw [noneWaits] at waits
      exact (not_disconnectWaits_nil waits).elim

theorem Recovers.advWork (recovers : Recovers s)
    (taken : AtomicStep s .advWork s') : Recovers s' := by
  have accounted := recovers.accounted
  cases step_effect (step_of_single taken)
  unfold advertisingProcess advertisingContinue
  split
  case isTrue running =>
    refine ⟨recovers.awake,
      ⟨accounted.onAir, accounted.up, accounted.announced⟩, fun noLink => ?_⟩
    refine .inl ((accounted.onAir running).resolve_right ?_)
    rintro ⟨dst, err, member⟩
    rw [show s.ble.callbacks = [] from noLink.2] at member
    cases member
  case isFalse silent =>
    rw [if_neg (by decide)]
    exact ⟨recovers.awake,
      ⟨fun _ => .inl rfl, accounted.up, accounted.announced⟩,
      fun _ => .inl rfl⟩

/-- A connection that was reported established is not forgotten when another
callback is delivered. -/
theorem Accounted.announced_behind {callback : Callback}
    {callbacks : List Callback} {ble : BleState} (accounted : Accounted ble)
    (waits : ble.callbacks = callback :: callbacks) :
    ∀ dst earlier later, callbacks = earlier ++ .connected dst 0 :: later →
      ble.connections ≠ [] ∨ DisconnectWaits later := by
  intro dst earlier later split
  apply accounted.announced dst (callback :: earlier) later
  rw [waits, split]
  rfl

theorem Recovers.connected {dst : Option BtAddrLe} {err : UInt8}
    {callbacks : List Callback} (recovers : Recovers s)
    (waits : s.ble.callbacks = .connected dst err :: callbacks)
    (armed : err ≠ 0 → err ≠ btHciErrAdvTimeout →
      s.ble.advModeSwitchWork.Pending) :
    Recovers { s with ble := connected dst err { s.ble with callbacks } } := by
  have accounted := recovers.accounted
  have announced := accounted.announced_behind waits
  obtain ⟨feData, same⟩ := connected_eq dst err { s.ble with callbacks }
  rw [same]
  by_cases established : err = 0
  · subst established
    have link := accounted.announced dst [] callbacks waits
    refine ⟨recovers.awake, ⟨by simp, fun _ => link, announced⟩, ?_⟩
    rintro ⟨noneLive, noneWaits⟩
    rcases link with live | disconnects
    · exact (live noneLive).elim
    · rw [show callbacks = [] from noneWaits] at disconnects
      exact (not_disconnectWaits_nil disconnects).elim
  · have up (isUp : s.ble.gBtrcSt ≠ .disconnecte) :
        s.ble.connections ≠ [] ∨ DisconnectWaits callbacks := by
      apply (accounted.up isUp).imp_right
      rintro ⟨dst', member⟩
      rw [waits] at member
      exact ⟨dst', by simpa using member⟩
    refine ⟨recovers.awake,
      ⟨by simp, by simpa [established] using up, announced⟩, fun _ => ?_⟩
    by_cases timeout : err = btHciErrAdvTimeout
    · exact .inr (.inr (by simp [timeout]))
    · exact .inr (.inr (by simpa [timeout] using armed established timeout))

theorem Recovers.disconnected {dstAddr : BtAddrLe} {callbacks : List Callback}
    (recovers : Recovers s)
    (waits : s.ble.callbacks = .disconnected (some dstAddr) :: callbacks) :
    Recovers { s with
      ble := disconnected (some dstAddr) { s.ble with callbacks } } := by
  have accounted := recovers.accounted
  have onAir (running : s.ble.isAdvRunning = true) :
      s.ble.advertising.isSome ∨
        ({ s.ble with callbacks } : BleState).ConnectedWaits :=
    (accounted.onAir running).imp_right fun waiting => waiting.behind waits
  exact ⟨recovers.awake,
    ⟨onAir, fun isUp => (isUp rfl).elim, accounted.announced_behind waits⟩,
    fun _ => .inr (.inr (DelayableWork.pending_reschedule _ _))⟩

theorem Recovers.callback (recovers : Recovers s)
    (taken : AtomicStep s .callback s')
    (arms : ArmsOrFindsArmed s .callback) : Recovers s' := by
  cases step_effect (step_of_single taken) with
  | callback callback callbacks waits =>
  have armed := arms rfl callback callbacks waits
  cases callback with
  | connected dst err => exact recovers.connected waits armed
  | disconnected dst =>
      obtain ⟨dstAddr, rfl⟩ := Option.isSome_iff_exists.mp armed
      exact recovers.disconnected waits

theorem link_of_hasLink {ble : BleState} (hasLink : ble.hasLink = true) :
    ble.connections ≠ [] ∨ DisconnectWaits ble.callbacks := by
  rw [BleState.hasLink, Bool.or_eq_true, decide_eq_true_eq, List.any_eq_true]
    at hasLink
  apply hasLink.imp_right
  rintro ⟨callback, member, isDisconnected⟩
  cases callback with
  | connected dst err => cases isDisconnected
  | disconnected dst => exact ⟨dst, member⟩

/-- Where a callback stands in a queue that has grown by one. -/
theorem append_singleton_split {callbacks earlier later : List Callback}
    {last callback : Callback}
    (split : callbacks ++ [last] = earlier ++ callback :: later) :
    callback = last ∨ ∃ later', later = later' ++ [last] ∧
      callbacks = earlier ++ callback :: later' := by
  rcases List.eq_nil_or_concat later with rfl | ⟨later', other, rfl⟩
  · obtain ⟨-, same⟩ := List.append_inj' split rfl
    exact .inl (List.singleton_inj.mp same).symm
  · have regrouped : callbacks ++ [last] =
        (earlier ++ callback :: later') ++ [other] := by
      rw [split, List.concat_eq_append]
      simp
    obtain ⟨before, same⟩ := List.append_inj' regrouped rfl
    obtain rfl := List.singleton_inj.mp same
    exact .inr ⟨later', List.concat_eq_append, before⟩

theorem Recovers.advEnds {dst : Option BtAddrLe} {err : UInt8}
    (recovers : Recovers s) :
    Recovers { s with ble := advertisingEnds dst err s.ble } := by
  have accounted := recovers.accounted
  have grown (live : s.ble.connections ≠ []) :
      (if err = 0 then dst :: s.ble.connections
        else s.ble.connections) ≠ [] := by
    split
    · exact List.cons_ne_nil _ _
    · exact live
  refine ⟨recovers.awake,
    ⟨fun _ => .inr (connectedWaits_advertisingEnds dst err s.ble),
      fun isUp => ?_, ?_⟩, ?_⟩
  · rcases accounted.up isUp with live | ⟨dst', member⟩
    · exact .inl (grown live)
    · exact .inr ⟨dst', List.mem_append_left _ member⟩
  · intro dst' earlier later split
    rcases append_singleton_split split with same | ⟨later', rfl, before⟩
    · cases same
      exact .inl (List.cons_ne_nil _ _)
    · rcases accounted.announced dst' earlier later' before with
        live | ⟨dst'', member⟩
      · exact .inl (grown live)
      · exact .inr ⟨dst'', List.mem_append_left _ member⟩
  · rintro ⟨-, noneWaits⟩
    simp [advertisingEnds] at noneWaits

theorem Recovers.linkLost {link : Nat} {dst : Option BtAddrLe}
    (recovers : Recovers s) :
    Recovers { s with ble := linkEnds link dst s.ble } := by
  have accounted := recovers.accounted
  refine ⟨recovers.awake, ⟨fun running => ?_, fun _ => .inr ⟨dst, ?_⟩, ?_⟩, ?_⟩
  · exact (accounted.onAir running).imp_right fun waiting => waiting.linkEnds
  · simp [linkEnds]
  · intro dst' earlier later split
    rcases append_singleton_split split with same | ⟨later', rfl, -⟩
    · cases same
    · exact .inr ⟨dst, by simp⟩
  · rintro ⟨-, noneWaits⟩
    simp [linkEnds] at noneWaits

theorem Recovers.step {label : AtomicLabel} (recovers : Recovers s)
    (taken : AtomicStep s label s') (arms : ArmsOrFindsArmed s label) :
    Recovers s' := by
  have accounted := recovers.accounted
  cases label with
  | tryAdvertisingStart isWakeup timeS =>
      exact Recovers.start recovers.awake accounted taken
  | advModeSwitchHandler => exact recovers.switch taken
  | advWork => exact recovers.advWork taken
  | callback => exact recovers.callback taken arms
  | timerExpires =>
      cases step_effect (step_of_single taken)
      refine ⟨recovers.awake,
        ⟨accounted.onAir, accounted.up, accounted.announced⟩, fun _ => ?_⟩
      exact .inr (.inr (.inr rfl))
  | securityChanged err =>
      cases step_effect (step_of_single taken) with
      | securityChanged _ hasLink =>
      dsimp only [securityChangedCb]
      split
      · have link := link_of_hasLink hasLink
        exact ⟨recovers.awake,
          ⟨accounted.onAir, fun _ => link, accounted.announced⟩,
          recovers.recoverable⟩
      · exact recovers
  | advEnds dst err =>
      cases step_effect (step_of_single taken)
      exact recovers.advEnds
  | linkLost link =>
      cases step_effect (step_of_single taken)
      exact recovers.linkLost
  | bonded addr =>
      cases step_effect (step_of_single taken)
      exact ⟨recovers.awake,
        ⟨accounted.onAir, accounted.up, accounted.announced⟩,
        recovers.recoverable⟩

/-- From the first start on, in every run in which a failed connection is
reported only while the mode switch is armed, a remote without connection
advertises or is about to. -/
theorem silent_remote_recovers {start first : BleSystem} {isWakeup : Bool}
    {timeS : Int32} {labels : List AtomicLabel} (booted : Booted start)
    (starts : AtomicStep start (.tryAdvertisingStart isWakeup timeS) first)
    (run : Path (Restrict AtomicStep ArmsOrFindsArmed) first labels s)
    (noLink : NoLink s.ble) : Recoverable s.ble := by
  have accounted : Accounted start.ble := by
    refine ⟨?_, ?_, ?_⟩
    · simp [booted.isAdvRunning]
    · simp [booted.gBtrcSt]
    · simp [booted.callbacks]
  have atFirst : Recovers first :=
    Recovers.start ⟨booted.starting, booted.switching⟩ accounted starts
  have recovers : Recovers s :=
    run.invariant Recovers
      (fun _ _ _ before taken => before.step taken.1 taken.2) atFirst
  exact recovers.recoverable noLink

end Steps

section FailedConnection

/-- After a start, a connection cannot be established (error 0x3e). -/
def failsToConnect (timeS : Int32) : List AtomicLabel :=
  [.tryAdvertisingStart false timeS, .advWork, .advEnds (some samplePeer) 0x3e]

/-- Advertising for five seconds is just started. -/
def timedStart : BleSystem :=
  { bootedWith [] with ble := tryAdvertisingStart false 5 (bootedWith []).ble }

/-- With advertising for five seconds the mode switch is armed. -/
theorem timed_start_recovers : ∃ s,
    Path AtomicStep (bootedWith []) (failsToConnect 5 ++ [.callback]) s ∧
      NoLink s.ble ∧ Recoverable s.ble := by
  have starts : AtomicStep (bootedWith []) (.tryAdvertisingStart false 5)
      timedStart := rfl
  have ends : Path AtomicStep timedStart
      [.advWork, .advEnds (some samplePeer) 0x3e] _ := path_of_execute rfl
  have endsRestricted := ends.restrict ArmsOrFindsArmed
    fun state label member isCallback => by simp [isCallback] at member
  obtain ⟨s, run, noLink⟩ : ∃ s, Path (Restrict AtomicStep ArmsOrFindsArmed)
      timedStart ([.advWork, .advEnds (some samplePeer) 0x3e] ++ [.callback])
      s ∧ NoLink s.ble := by
    refine ⟨_, endsRestricted.append (path_singleton_iff.mpr ⟨rfl, ?_⟩),
      rfl, rfl⟩
    rintro - callback callbacks waits
    obtain ⟨rfl, rfl⟩ := List.cons.inj waits
    exact fun _ _ => .inl rfl
  exact ⟨s, .cons starts run.unrestrict, noLink,
    silent_remote_recovers (bootedWith_booted []) starts run noLink⟩

/-- With advertising without end nothing is left to go on with. -/
theorem untimed_start_silenced : ∃ s,
    Path AtomicStep (bootedWith []) (failsToConnect 0 ++ [.callback]) s ∧
      NoLink s.ble ∧ ¬ Recoverable s.ble := by
  refine ⟨_, path_of_execute rfl, ⟨rfl, rfl⟩, ?_⟩
  rintro (onAir | queued | pending)
  · cases onAir
  · cases queued
  · exact absurd pending (by decide)

end FailedConnection

end BleRc

end SzpiSta
