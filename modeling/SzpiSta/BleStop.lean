import SzpiSta.BleRc

/-!
# Does a stop last?

Stopping advertising takes back neither a start that is queued, nor a start that
sleeps, nor an armed mode switch, although `adv_mode_switch_delay_work_cancle`
would do the last.  A stop therefore lasts exactly if none of them is there.
-/

namespace SzpiSta

namespace BleRc

open TransitionPaths

/-- The step is a stop request that reports success. -/
def StopSucceeds (s : BleSystem) : Label → Prop
  | .stop stopErr => (advertisingStop stopErr s.ble).1 = 0
  | .deletePaired unpairErr stopErr =>
      (advertisingStop stopErr
        (tryUnpair unpairErr s.ble.gRcLastPairedAddr s.ble)).1 = 0
  | _ => False

/-- The step neither begins an explicit start nor delivers a connection
callback. -/
def NotAsked (_ : BleSystem) : Label → Prop
  | .startBegin _ _ _ | .callback => False
  | _ => True

/-- A step in which `bt_le_adv_start` succeeds. -/
def StartsAdvertising (before : BleSystem) (_ : Label) (after : BleSystem) :
    Prop :=
  before.ble.isAdvRunning = false ∧ after.ble.isAdvRunning = true

/-- However the system goes on without being asked, it does not start to
advertise. -/
def StaysStopped (s : BleSystem) : Prop :=
  ∀ labels last, Path (Restrict Step NotAsked) s labels last →
    EveryStep (Restrict Step NotAsked)
      (fun before label after => ¬ StartsAdvertising before label after)
      s labels last

/-- Nothing is under way that could start advertising: no start queued or
asleep and, unless a connection is up, no mode switch pending or asleep. -/
structure NothingUnderWay (s : BleSystem) : Prop where
  advWork : s.ble.advWork = false
  starting : s.starting = []
  modeSwitch : s.ble.gBtrcSt = .disconnecte →
    ¬ s.ble.advModeSwitchWork.Pending ∧ s.switching = false

section Stopped

variable {s s' : BleSystem} {label : Label}

theorem tryUnpair_frame (err : Int) (addr : BtAddrLe) (ble : BleState) :
    ∃ bonds, tryUnpair err addr ble = { ble with bonds } := by
  unfold tryUnpair
  split
  · exact ⟨ble.bonds, rfl⟩
  · exact ⟨_, rfl⟩

theorem cmdDeletePaired_frame (unpairErr stopErr : Int) (ble : BleState) :
    (cmdDeletePaired unpairErr stopErr ble).advWork = ble.advWork ∧
      (cmdDeletePaired unpairErr stopErr ble).gBtrcSt = ble.gBtrcSt ∧
      (cmdDeletePaired unpairErr stopErr ble).advModeSwitchWork =
        ble.advModeSwitchWork := by
  obtain ⟨bonds, unpaired⟩ :=
    tryUnpair_frame unpairErr ble.gRcLastPairedAddr ble
  unfold cmdDeletePaired
  simp [unpaired]

/-- A stop clears the flag and leaves everything under way as it is. -/
theorem stop_effect (stops : StopSucceeds s label) (taken : Step s label s') :
    s'.ble.isAdvRunning = false ∧
      (NothingUnderWay s' ↔ NothingUnderWay s) := by
  cases step_effect taken with
  | stop stopErr =>
      refine ⟨advertisingStop_stopped stops, ?_⟩
      constructor
      · rintro ⟨advWork, starting, modeSwitch⟩
        exact ⟨by simpa using advWork, starting, by simpa using modeSwitch⟩
      · rintro ⟨advWork, starting, modeSwitch⟩
        exact ⟨by simpa using advWork, starting, by simpa using modeSwitch⟩
  | deletePaired unpairErr stopErr =>
      obtain ⟨advWork, gBtrcSt, work⟩ :=
        cmdDeletePaired_frame unpairErr stopErr s.ble
      refine ⟨advertisingStop_stopped stops, ?_⟩
      constructor
      · rintro ⟨noWork, starting, modeSwitch⟩
        rw [gBtrcSt, work] at modeSwitch
        exact ⟨advWork ▸ noWork, starting, modeSwitch⟩
      · rintro ⟨noWork, starting, modeSwitch⟩
        rw [← gBtrcSt, ← work] at modeSwitch
        exact ⟨advWork.trans noWork, starting, modeSwitch⟩
  | startBegin | startEnd | advWork | timerExpires | switchBegin | switchEnd |
      callback | securityChanged | advEnds | linkLost | bonded =>
      exact stops.elim

/-- With nothing under way nothing comes up that was not asked for. -/
theorem NothingUnderWay.step (nothing : NothingUnderWay s)
    (silent : s.ble.isAdvRunning = false) (taken : Step s label s')
    (notAsked : NotAsked s label) :
    NothingUnderWay s' ∧ s'.ble.isAdvRunning = false := by
  cases step_effect taken with
  | startBegin | callback => exact notAsked.elim
  | startEnd sleeper timeS asleep =>
      rw [nothing.starting] at asleep
      cases asleep
  | stop stopErr =>
      rw [advertisingStop_silent silent]
      exact ⟨⟨nothing.advWork, nothing.starting, nothing.modeSwitch⟩, silent⟩
  | deletePaired unpairErr stopErr =>
      obtain ⟨advWork, gBtrcSt, work⟩ :=
        cmdDeletePaired_frame unpairErr stopErr s.ble
      obtain ⟨bonds, unpaired⟩ :=
        tryUnpair_frame unpairErr s.ble.gRcLastPairedAddr s.ble
      refine ⟨⟨advWork.trans nothing.advWork, nothing.starting, ?_⟩, ?_⟩
      · dsimp only
        rw [gBtrcSt, work]
        exact nothing.modeSwitch
      · dsimp only [cmdDeletePaired]
        rw [unpaired]
        exact advertisingStop_keeps_silent silent
  | advWork startErr queued free =>
      rw [nothing.advWork] at queued
      cases queued
  | timerExpires armed =>
      refine ⟨⟨nothing.advWork, nothing.starting, fun down => ?_⟩, silent⟩
      exact ((nothing.modeSwitch down).1 (.inl armed)).elim
  | switchBegin stopErr queued free =>
      have up : s.ble.gBtrcSt ≠ .disconnecte := fun down =>
        (nothing.modeSwitch down).1 (.inr queued)
      refine ⟨⟨?_, nothing.starting, fun down => ?_⟩,
        advertisingStop_keeps_silent silent⟩
      · simpa [advModeSwitchHandlerBegin] using nothing.advWork
      · exact (up (by simpa [advModeSwitchHandlerBegin] using down)).elim
  | switchEnd asleep =>
      have up : s.ble.gBtrcSt ≠ .disconnecte := by
        intro down
        have awake := (nothing.modeSwitch down).2
        rw [asleep] at awake
        cases awake
      rw [advModeSwitchHandlerEnd_eq, if_neg up]
      exact ⟨⟨nothing.advWork, nothing.starting, fun down => (up down).elim⟩,
        silent⟩
  | securityChanged err hasLink =>
      dsimp only [securityChangedCb]
      split
      · refine ⟨⟨nothing.advWork, nothing.starting, fun down => ?_⟩, silent⟩
        cases down
      · exact ⟨nothing, silent⟩
  | advEnds dst err canEnd =>
      exact ⟨⟨nothing.advWork, nothing.starting, nothing.modeSwitch⟩, silent⟩
  | linkLost link dst live =>
      exact ⟨⟨nothing.advWork, nothing.starting, nothing.modeSwitch⟩, silent⟩
  | bonded addr =>
      exact ⟨⟨nothing.advWork, nothing.starting, nothing.modeSwitch⟩, silent⟩

theorem staysStopped_of_nothing (nothing : NothingUnderWay s)
    (silent : s.ble.isAdvRunning = false) : StaysStopped s := by
  intro labels last _
  refine everyStep_of_invariant
    (fun s => NothingUnderWay s ∧ s.ble.isAdvRunning = false)
    (fun _ _ _ quiet step => quiet.1.step quiet.2 step.1 step.2) ?_
    ⟨nothing, silent⟩
  rintro before label after quiet taken ⟨-, starts⟩
  have stillSilent := (quiet.1.step quiet.2 taken.1 taken.2).2
  rw [starts] at stillSilent
  cases stillSilent

end Stopped

section Restarting

variable {s s' : BleSystem}

/-- A step that starts advertising can be reached without being asked for. -/
def Restarts (s : BleSystem) : Prop :=
  ∃ labels before label after,
    Path (Restrict Step NotAsked) s labels before ∧
      Restrict Step NotAsked before label after ∧
      StartsAdvertising before label after

theorem not_staysStopped_of_restarts (restarts : Restarts s) :
    ¬ StaysStopped s := by
  obtain ⟨labels, before, label, after, run, taken, starts⟩ := restarts
  intro stays
  exact everyStep_iff_not_leadsTo.mp stays
    ⟨labels, before, label, after, run, taken, not_not.mpr starts⟩

theorem Restarts.of_step {label : Label}
    (taken : Restrict Step NotAsked s label s') (restarts : Restarts s') :
    Restarts s :=
  LeadsTo.of_step taken restarts

/-- A queued start starts as soon as the work queue is free. -/
theorem restarts_of_queued (silent : s.ble.isAdvRunning = false)
    (queued : s.ble.advWork = true) (free : s.switching = false) :
    Restarts s := by
  refine ⟨[], s, .advWork 0, { s with ble := advertisingProcess 0 s.ble },
    .nil _, ⟨?_, trivial⟩, silent, ?_⟩
  · exact if_pos ⟨queued, by simp [free]⟩
  · unfold advertisingProcess advertisingContinue
    rw [if_neg (by simp [silent]), if_neg (by decide)]

/-- The end of a sleeping handler leaves a queued start queued. -/
theorem restarts_of_advWork (silent : s.ble.isAdvRunning = false)
    (queued : s.ble.advWork = true) : Restarts s := by
  cases asleep : s.switching with
  | false => exact restarts_of_queued silent queued asleep
  | true =>
      have ends : Restrict Step NotAsked s .switchEnd
          { s with ble := advModeSwitchHandlerEnd s.ble, switching := false } :=
        ⟨if_pos asleep, trivial⟩
      apply Restarts.of_step ends
      apply restarts_of_queued
      · rw [advModeSwitchHandlerEnd_eq]
        split <;> exact silent
      · rw [advModeSwitchHandlerEnd_eq]
        split <;> simp [queued]
      · rfl

theorem restarts_of_sleeper (silent : s.ble.isAdvRunning = false)
    (sleeps : s.starting ≠ []) : Restarts s := by
  cases sleepers : s.starting with
  | nil => exact (sleeps sleepers).elim
  | cons timeS rest =>
      have wakes : Restrict Step NotAsked s (.startEnd 0)
          { s with
            ble := tryAdvertisingStartEnd timeS s.ble
            starting := s.starting.eraseIdx 0 } := by
        refine ⟨Option.map_eq_some_iff.mpr ⟨timeS, ?_, rfl⟩, trivial⟩
        rw [sleepers]
        rfl
      apply Restarts.of_step wakes
      apply restarts_of_advWork
      · rw [tryAdvertisingStartEnd_eq]
        exact silent
      · rw [tryAdvertisingStartEnd_eq]
        simp [silent]

theorem restarts_of_switching (silent : s.ble.isAdvRunning = false)
    (down : s.ble.gBtrcSt = .disconnecte) (asleep : s.switching = true) :
    Restarts s := by
  have ends : Restrict Step NotAsked s .switchEnd
      { s with ble := advModeSwitchHandlerEnd s.ble, switching := false } :=
    ⟨if_pos asleep, trivial⟩
  apply Restarts.of_step ends
  apply restarts_of_advWork
  · rw [advModeSwitchHandlerEnd_eq, if_pos down]
    exact silent
  · rw [advModeSwitchHandlerEnd_eq, if_pos down]
    simp [silent]

theorem restarts_of_switchQueued (silent : s.ble.isAdvRunning = false)
    (down : s.ble.gBtrcSt = .disconnecte)
    (queued : s.ble.advModeSwitchWork.queued = true) : Restarts s := by
  cases asleep : s.switching with
  | true => exact restarts_of_switching silent down asleep
  | false =>
      have begins : Restrict Step NotAsked s (.switchBegin 0)
          { s with
            ble := advModeSwitchHandlerBegin 0 { s.ble with
              advModeSwitchWork := s.ble.advModeSwitchWork.take }
            switching := true } :=
        ⟨if_pos ⟨queued, by simp [asleep]⟩, trivial⟩
      apply Restarts.of_step begins
      apply restarts_of_switching
      · exact advertisingStop_keeps_silent silent
      · simpa [advModeSwitchHandlerBegin] using down
      · rfl

theorem restarts_of_pending (silent : s.ble.isAdvRunning = false)
    (down : s.ble.gBtrcSt = .disconnecte)
    (pending : s.ble.advModeSwitchWork.Pending) : Restarts s := by
  rcases pending with armed | queued
  · have expires : Restrict Step NotAsked s .timerExpires
        { s with ble := { s.ble with
          advModeSwitchWork := s.ble.advModeSwitchWork.expire } } :=
      ⟨if_pos armed, trivial⟩
    apply Restarts.of_step expires
    exact restarts_of_switchQueued silent down rfl
  · exact restarts_of_switchQueued silent down queued

theorem nothing_of_staysStopped (silent : s.ble.isAdvRunning = false)
    (stays : StaysStopped s) : NothingUnderWay s := by
  have noRestart : ¬ Restarts s := fun restarts =>
    not_staysStopped_of_restarts restarts stays
  refine ⟨?_, ?_, fun down => ⟨?_, ?_⟩⟩
  · rw [← Bool.not_eq_true]
    exact fun queued => noRestart (restarts_of_advWork silent queued)
  · by_contra sleeps
    exact noRestart (restarts_of_sleeper silent sleeps)
  · exact fun pending => noRestart (restarts_of_pending silent down pending)
  · rw [← Bool.not_eq_true]
    exact fun asleep => noRestart (restarts_of_switching silent down asleep)

end Restarting

/-- A stop that reports success lasts exactly if nothing was under way when it
came. -/
theorem stop_lasts_iff {s s' : BleSystem} {label : Label}
    (stops : StopSucceeds s label) (taken : Step s label s') :
    StaysStopped s' ↔ NothingUnderWay s := by
  obtain ⟨silent, underWay⟩ := stop_effect stops taken
  rw [← underWay]
  exact ⟨nothing_of_staysStopped silent,
    fun nothing => staysStopped_of_nothing nothing silent⟩

/-- Advertising without a time, stopped while it is on air, stays stopped. -/
theorem untimed_advertising_stays_stopped : ∃ s s',
    Path Step (bootedWith []) [.startBegin false 0 0, .startEnd 0, .advWork 0]
        s ∧
      s.ble.isAdvRunning = true ∧ StopSucceeds s (.stop 0) ∧
      Step s (.stop 0) s' ∧ StaysStopped s' := by
  have run : Path Step (bootedWith [])
      [.startBegin false 0 0, .startEnd 0, .advWork 0] _ := path_of_execute rfl
  have lasts {s s' : BleSystem} (stops : StopSucceeds s (.stop 0))
      (taken : Step s (.stop 0) s') (nothing : NothingUnderWay s) :
      StopSucceeds s (.stop 0) ∧ Step s (.stop 0) s' ∧ StaysStopped s' :=
    ⟨stops, taken, (stop_lasts_iff stops taken).mpr nothing⟩
  exact ⟨_, _, run, rfl, lasts rfl rfl ⟨rfl, rfl, fun _ => ⟨by decide, rfl⟩⟩⟩

/-- Advertising for five seconds, stopped at once: the mode switch brings it
back. -/
theorem timed_advertising_comes_back : ∃ s s',
    Path Step (bootedWith []) [.startBegin false 5 0, .startEnd 0, .advWork 0]
        s ∧
      StopSucceeds s (.stop 0) ∧ Step s (.stop 0) s' ∧ ¬ StaysStopped s' := by
  refine ⟨_, _, path_of_execute rfl, rfl, rfl, ?_⟩
  apply not_staysStopped_of_restarts
  exact restarts_of_pending rfl rfl (.inl rfl)

end BleRc

end SzpiSta
