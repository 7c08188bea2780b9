import SzpiSta.BleRc

/-!
# Is `is_adv_running` what the controller is doing?

The flag follows every start and stop, and `connected` clears it.  A connection
callback that arrives after advertising was started again clears it wrongly.  As
long as every `connected` is delivered while the controller is silent, the flag
and the controller agree whenever no such callback waits.
-/

namespace SzpiSta

namespace BleRc

open TransitionPaths

/-- The invariant: a silent flag means a silent controller, and a set flag an
advertisement on air or a callback that will clear it. -/
structure Shadows (s : BleState) : Prop where
  running : s.advertising.isSome → s.isAdvRunning = true
  onAir : s.isAdvRunning = true → s.advertising.isSome ∨ s.ConnectedWaits

/-- A `connected` callback is delivered only while the controller is silent. -/
def DeliveredInTime (s : BleSystem) (label : Label) : Prop :=
  label = .callback → ∀ dst err callbacks,
    s.ble.callbacks = .connected dst err :: callbacks →
      s.ble.advertising = none

section Functions

variable {s : BleState} {err : Int}

theorem Shadows.advertisingContinue (shadows : Shadows s) :
    Shadows (advertisingContinue err s) := by
  unfold BleRc.advertisingContinue
  split
  · exact shadows
  split
  · exact shadows
  · exact ⟨fun _ => rfl, fun _ => .inl rfl⟩

theorem Shadows.advertisingStop (shadows : Shadows s) :
    Shadows (advertisingStop err s).2 := by
  unfold BleRc.advertisingStop
  split
  · exact shadows
  split
  · exact shadows
  · exact ⟨by simp, by simp⟩

theorem Shadows.advertisingStart (shadows : Shadows s) :
    Shadows (advertisingStart s) := by
  rw [advertisingStart_eq]
  exact ⟨shadows.running, shadows.onAir⟩

theorem Shadows.tryAdvertisingStartEnd {timeS : Int32} (shadows : Shadows s) :
    Shadows (tryAdvertisingStartEnd timeS s) := by
  have started := shadows.advertisingStart
  unfold BleRc.tryAdvertisingStartEnd
  dsimp only
  split
  · exact ⟨started.running, started.onAir⟩
  · exact started

theorem Shadows.advModeSwitchHandlerEnd (shadows : Shadows s) :
    Shadows (advModeSwitchHandlerEnd s) := by
  unfold BleRc.advModeSwitchHandlerEnd
  dsimp only
  split
  · apply Shadows.advertisingStart
    exact ⟨shadows.running, shadows.onAir⟩
  · exact ⟨shadows.running, shadows.onAir⟩

theorem Shadows.cmdDeletePaired {unpairErr : Int} (shadows : Shadows s) :
    Shadows (cmdDeletePaired unpairErr err s) := by
  have unpaired : Shadows (tryUnpair unpairErr s.gRcLastPairedAddr s) := by
    unfold tryUnpair
    split
    · exact shadows
    · exact ⟨shadows.running, shadows.onAir⟩
  have stopped : Shadows (BleRc.advertisingStop err
      (tryUnpair unpairErr s.gRcLastPairedAddr s)).2 :=
    unpaired.advertisingStop
  exact ⟨stopped.running, stopped.onAir⟩

/-- `connected` clears the flag, so the controller has to be silent. -/
theorem shadows_connected {dst : Option BtAddrLe} {code : UInt8}
    (silent : s.advertising = none) : Shadows (connected dst code s) := by
  obtain ⟨feData, same⟩ := connected_eq dst code s
  rw [same]
  exact ⟨by simp [silent], by simp⟩

end Functions

/-- The step lemma. -/
theorem Shadows.step {s s' : BleSystem} {label : Label}
    (shadows : Shadows s.ble) (taken : Step s label s')
    (inTime : DeliveredInTime s label) : Shadows s'.ble := by
  cases step_effect taken with
  | startBegin isWakeup timeS stopErr =>
      apply Shadows.advertisingStop
      exact ⟨shadows.running, shadows.onAir⟩
  | startEnd sleeper timeS asleep => exact shadows.tryAdvertisingStartEnd
  | stop stopErr => exact shadows.advertisingStop
  | deletePaired unpairErr stopErr => exact shadows.cmdDeletePaired
  | advWork startErr queued free =>
      apply Shadows.advertisingContinue
      exact ⟨shadows.running, shadows.onAir⟩
  | timerExpires armed => exact ⟨shadows.running, shadows.onAir⟩
  | switchBegin stopErr queued free =>
      apply Shadows.advertisingStop
      exact ⟨shadows.running, shadows.onAir⟩
  | switchEnd asleep => exact shadows.advModeSwitchHandlerEnd
  | callback callback callbacks waits =>
      cases callback with
      | connected dst err =>
          exact shadows_connected (inTime rfl dst err callbacks waits)
      | disconnected dst =>
          have onAir (running : s.ble.isAdvRunning = true) :
              s.ble.advertising.isSome ∨
                ({ s.ble with callbacks } : BleState).ConnectedWaits :=
            (shadows.onAir running).imp_right fun waiting =>
              waiting.behind waits
          cases dst with
          | none => exact ⟨shadows.running, onAir⟩
          | some dstAddr => exact ⟨shadows.running, onAir⟩
  | securityChanged err hasLink =>
      dsimp only [securityChangedCb]
      split
      · exact ⟨shadows.running, shadows.onAir⟩
      · exact shadows
  | advEnds dst err canEnd =>
      exact ⟨by simp [advertisingEnds],
        fun _ => .inr (connectedWaits_advertisingEnds dst err s.ble)⟩
  | linkLost link dst live =>
      exact ⟨shadows.running, fun running =>
        (shadows.onAir running).imp_right fun waiting => waiting.linkEnds⟩
  | bonded addr => exact ⟨shadows.running, shadows.onAir⟩

/-- In every run in which each `connected` is delivered in time, the flag and
the controller agree whenever none of these callbacks waits. -/
theorem running_iff_advertising {start s : BleSystem} {labels : List Label}
    (booted : Booted start)
    (run : Path (Restrict Step DeliveredInTime) start labels s)
    (noneWaits : ¬ s.ble.ConnectedWaits) :
    s.ble.isAdvRunning = true ↔ s.ble.advertising.isSome := by
  have atStart : Shadows start.ble := by
    refine ⟨?_, ?_⟩
    · simp [booted.advertising]
    · simp [booted.isAdvRunning]
  have shadows : Shadows s.ble :=
    run.invariant (fun s => Shadows s.ble)
      (fun _ _ _ before taken => before.step taken.1 taken.2) atStart
  constructor
  · intro running
    exact (shadows.onAir running).resolve_right noneWaits
  · exact shadows.running

section LateCallback

/-- Advertising is started and a peer connects. -/
def connects : List Label :=
  [.startBegin false 0 0, .startEnd 0, .advWork 0, .advEnds (some samplePeer) 0]

theorem connects_inTime : ∃ s,
    Path (Restrict Step DeliveredInTime) (bootedWith [])
        (connects ++ [.callback]) s ∧ s.ble.callbacks = [] := by
  have connecting : Path Step (bootedWith []) connects _ := path_of_execute rfl
  have beforeCallback := connecting.restrict DeliveredInTime
    fun state label member isCallback => by
      rw [isCallback] at member
      exact absurd member (by decide)
  refine ⟨_, beforeCallback.append (path_singleton_iff.mpr ⟨rfl, ?_⟩), rfl⟩
  intro _ _ _ _ _
  rfl

theorem flag_follows_prompt_callback : ∃ s,
    Path Step (bootedWith []) (connects ++ [.callback]) s ∧
      (s.ble.isAdvRunning = true ↔ s.ble.advertising.isSome) := by
  obtain ⟨s, run, noneWait⟩ := connects_inTime
  refine ⟨s, run.unrestrict,
    running_iff_advertising (bootedWith_booted []) run ?_⟩
  rintro ⟨dst, err, member⟩
  rw [noneWait] at member
  cases member

/-- The start that overtakes the callback is on air with the flag cleared. -/
theorem late_callback_clears_flag :
    ∃ s, Path Step (bootedWith [])
        (connects ++ [.startBegin false 0 0, .startEnd 0, .advWork 0,
          .callback]) s ∧
      ¬ s.ble.ConnectedWaits ∧ s.ble.isAdvRunning = false ∧
      s.ble.advertising.isSome := by
  refine ⟨_, path_of_execute rfl, ?_, rfl, rfl⟩
  rintro ⟨dst, err, member⟩
  cases member

end LateCallback

end BleRc

end SzpiSta
