import SzpiSta.BleRc

/-!
# Whom does the wakeup packet name?

`g_rc_last_paired_addr` and `fe_data` are to describe the same peer.  `connected`
writes both, but the enumeration of the bonds writes the address alone.  The
wakeup packet names the peer of the address in every run in which `adv_work` is
left to a wakeup only with the two in agreement.
-/

namespace SzpiSta

namespace BleRc

open TransitionPaths

/-- The bytes of an address that `update_fe_data` copies. -/
def lowBytes (addr : BtAddrLe) : Vector UInt8 3 :=
  #v[addr.val.get 0, addr.val.get 1, addr.val.get 2]

/-- The step asks the controller to advertise a wakeup with these bytes. -/
def WakesUp (feData : Vector UInt8 3) (s : BleSystem) : Label → Prop
  | .advWork _ =>
      s.ble.isAdvRunning = false ∧ s.ble.advParam.kind = .wakeup feData
  | _ => False

/-- Whomever the step wakes up, it is the peer in `g_rc_last_paired_addr`. -/
def WakesUpTarget (before : BleSystem) (label : Label) (_ : BleSystem) :
    Prop :=
  ∀ feData, WakesUp feData before label →
    before.ble.gRcLastPairedAddr ≠ btAddrLeNone →
    feData = lowBytes before.ble.gRcLastPairedAddr

/-- `fe_data` names the peer, unless it is none. -/
def Names (feData : Vector UInt8 3) (addr : BtAddrLe) : Prop :=
  addr = btAddrLeNone ∨ feData = lowBytes addr

/-- A wakeup is asked for and the work queue is free to run `adv_work`. -/
def BleSystem.WakeupNext (s : BleSystem) : Prop :=
  s.ble.gWakeupAdvMode = true ∧ s.switching = false

/-- If the step leaves `adv_work` queued for a wakeup, the address it will read
is named by `fe_data`: the bond that an advertising start finds last, or the
address that stands there when a wakeup is asked for with `adv_work` in the
queue. -/
def LeavesNamed (s : BleSystem) : Label → Prop
  | .startBegin isWakeup _ _ =>
      isWakeup = true → s.switching = false → s.ble.advWork = true →
      Names s.ble.feData s.ble.gRcLastPairedAddr
  | .startEnd _ =>
      s.WakeupNext → (s.ble.advWork = true ∨ s.ble.isAdvRunning = false) →
      Names s.ble.feData s.ble.lastBond
  | _ => True

/-- While `adv_work` is queued for a wakeup, the two variables agree. -/
def WakeupNamed (s : BleSystem) : Prop :=
  s.WakeupNext → s.ble.advWork = true →
    Names s.ble.feData s.ble.gRcLastPairedAddr

section Wakeup

variable {s s' : BleSystem} {label : Label}

@[simp]
theorem advertisingStop_feData (err : Int) (s : BleState) :
    (advertisingStop err s).2.feData = s.feData := by
  rcases advertisingStop_frame err s with same | same <;> rw [same]

@[simp]
theorem advertisingStop_gRcLastPairedAddr (err : Int) (s : BleState) :
    (advertisingStop err s).2.gRcLastPairedAddr = s.gRcLastPairedAddr := by
  rcases advertisingStop_frame err s with same | same <;> rw [same]

@[simp]
theorem connected_gWakeupAdvMode (dst : Option BtAddrLe) (err : UInt8)
    (s : BleState) :
    (connected dst err s).gWakeupAdvMode = s.gWakeupAdvMode := by
  obtain ⟨feData, same⟩ := connected_eq dst err s
  rw [same]

@[simp]
theorem connected_advWork (dst : Option BtAddrLe) (err : UInt8)
    (s : BleState) : (connected dst err s).advWork = s.advWork := by
  obtain ⟨feData, same⟩ := connected_eq dst err s
  rw [same]

/-- `connected` writes both variables or none. -/
theorem connected_names (dst : Option BtAddrLe) (err : UInt8) (s : BleState)
    (named : dst = none → Names s.feData s.gRcLastPairedAddr) :
    Names (connected dst err s).feData
      (connected dst err s).gRcLastPairedAddr := by
  cases dst with
  | none =>
      have same : (connected none err s).feData = s.feData ∧
          (connected none err s).gRcLastPairedAddr = s.gRcLastPairedAddr := by
        unfold connected
        dsimp only
        split
        · split <;> exact ⟨rfl, rfl⟩
        · exact ⟨rfl, rfl⟩
      rw [same.1, same.2]
      exact named rfl
  | some addr =>
      right
      unfold connected
      dsimp only
      split
      · split <;> rfl
      · rfl

theorem WakeupNamed.step (named : WakeupNamed s) (taken : Step s label s')
    (leaves : LeavesNamed s label) : WakeupNamed s' := by
  cases step_effect taken with
  | startBegin isWakeup timeS stopErr =>
      rintro ⟨wakeup, free⟩ queued
      simp only [tryAdvertisingStartBegin, advertisingStop_gWakeupAdvMode,
        advertisingStop_advWork, advertisingStop_feData,
        advertisingStop_gRcLastPairedAddr] at wakeup queued ⊢
      exact leaves wakeup free queued
  | startEnd sleeper timeS asleep =>
      rintro ⟨wakeup, free⟩ queued
      rw [tryAdvertisingStartEnd_eq] at wakeup queued ⊢
      exact leaves ⟨wakeup, free⟩ (by simpa using queued)
  | stop stopErr =>
      rintro ⟨wakeup, free⟩ queued
      simp only [advertisingStop_gWakeupAdvMode, advertisingStop_advWork,
        advertisingStop_feData, advertisingStop_gRcLastPairedAddr]
        at wakeup queued ⊢
      exact named ⟨wakeup, free⟩ queued
  | deletePaired unpairErr stopErr => exact fun _ _ => .inl rfl
  | advWork startErr queued free =>
      intro _ again
      simp only [advertisingProcess, advertisingContinue] at again
      split at again
      · cases again
      · split at again <;> cases again
  | switchBegin stopErr queued free =>
      rintro ⟨-, free⟩
      cases free
  | switchEnd asleep =>
      rintro ⟨wakeup, -⟩
      simp only [advModeSwitchHandlerEnd_eq] at wakeup
      split at wakeup <;> cases wakeup
  | callback callback callbacks waits =>
      cases callback with
      | connected dst err =>
          rintro ⟨wakeup, free⟩ queued
          simp only [deliver, connected_gWakeupAdvMode, connected_advWork]
            at wakeup queued
          exact connected_names dst err _ fun _ => named ⟨wakeup, free⟩ queued
      | disconnected dst => cases dst <;> exact named
  | securityChanged err hasLink =>
      dsimp only [securityChangedCb]
      split <;> exact named
  | timerExpires | advEnds | linkLost | bonded => exact named

theorem wakesUp_named {feData : Vector UInt8 3}
    (wakes : WakesUp feData s label) :
    s.ble.gWakeupAdvMode = true ∧ feData = s.ble.feData := by
  cases label with
  | advWork startErr =>
      obtain ⟨-, kind⟩ := wakes
      simp only [BleState.advParam] at kind
      split at kind
      · split at kind <;> cases kind
      · rename_i wakeup
        cases kind
        exact ⟨by simpa using wakeup, rfl⟩
  | _ => exact wakes.elim

theorem WakeupNamed.wakesUpTarget (named : WakeupNamed s)
    (taken : Step s label s') : WakesUpTarget s label s' := by
  intro feData wakes notNone
  obtain ⟨wakeup, rfl⟩ := wakesUp_named wakes
  cases step_effect taken with
  | advWork startErr queued free =>
      exact (named ⟨wakeup, free⟩ queued).resolve_left notNone
  | _ => exact wakes.elim

end Wakeup

/-- In every run in which `adv_work` is left to a wakeup only with the two
variables in agreement, every wakeup names the peer in
`g_rc_last_paired_addr`. -/
theorem wakeup_names_target {boot last : BleSystem} {labels : List Label}
    (booted : Booted boot) :
    EveryStep (Restrict Step LeavesNamed) WakesUpTarget boot labels last := by
  have fromBoot : WakeupNamed boot := by
    intro _ queued
    rw [booted.advWork] at queued
    cases queued
  exact everyStep_of_invariant WakeupNamed
    (fun _ _ _ named taken => named.step taken.1 taken.2)
    (fun _ _ _ named taken => named.wakesUpTarget taken.1) fromBoot

section Disagreement

variable {s s' : BleSystem} {label : Label}

/-- A step that leaves `adv_work` to a wakeup in disagreement. -/
theorem queued_of_not_leavesNamed (taken : Step s label s')
    (disagrees : ¬ LeavesNamed s label) : ¬ WakeupNamed s' := by
  cases step_effect taken with
  | startBegin isWakeup timeS stopErr =>
      intro named
      apply disagrees
      intro wakeup free queued
      have agrees := named ⟨by simpa [tryAdvertisingStartBegin] using wakeup, free⟩
        (by simpa [tryAdvertisingStartBegin] using queued)
      simpa [tryAdvertisingStartBegin] using agrees
  | startEnd sleeper timeS asleep =>
      intro named
      apply disagrees
      rintro ⟨wakeup, free⟩ queued
      rw [tryAdvertisingStartEnd_eq] at named
      exact named ⟨wakeup, free⟩ (by simpa using queued)
  | _ => exact (disagrees trivial).elim

/-- Whenever the two disagree with `adv_work` queued for a wakeup, stopping the
advertisement and running `adv_work` sends the wrong bytes. -/
theorem leadsTo_wrong_wakeup (disagrees : ¬ WakeupNamed s) :
    LeadsTo Step (fun before label after => ¬ WakesUpTarget before label after)
      s := by
  simp only [WakeupNamed, Classical.not_imp] at disagrees
  obtain ⟨⟨wakeup, free⟩, queued, wrong⟩ := disagrees
  have stops : Step s (.stop 0) { s with ble := (advertisingStop 0 s.ble).2 } :=
    rfl
  have silent : (advertisingStop 0 s.ble).2.isAdvRunning = false :=
    advertisingStop_stopped (advertisingStop_zero _)
  refine ⟨[.stop 0], _, .advWork 0, _, path_singleton_iff.mpr stops,
    if_pos ⟨by simpa using queued, by simp [free]⟩, ?_⟩
  intro target
  apply wrong
  by_cases none : s.ble.gRcLastPairedAddr = btAddrLeNone
  · exact .inl none
  · right
    have kind : (advertisingStop 0 s.ble).2.advParam.kind =
        .wakeup s.ble.feData := by
      simp [BleState.advParam, wakeup]
    simpa using target s.ble.feData ⟨silent, kind⟩ (by simpa using none)

/-- So nothing weaker than the condition keeps every later wakeup right. -/
theorem leadsTo_of_not_leavesNamed (taken : Step s label s')
    (disagrees : ¬ LeavesNamed s label) :
    LeadsTo Step (fun before label after => ¬ WakesUpTarget before label after)
      s' :=
  leadsTo_wrong_wakeup (queued_of_not_leavesNamed taken disagrees)

end Disagreement

/-- A peer that `fe_data` does not name at boot. -/
def otherPeer : BtAddrLe := ⟨0, #v[1, 2, 3, 4, 5, 6]⟩

def wakeupAfterBoot : List Label :=
  [.startBegin true 0 0, .startEnd 0, .advWork 0]

theorem named_bond_is_woken_up : ∃ last,
    Path (Restrict Step LeavesNamed) (bootedWith [samplePeer]) wakeupAfterBoot
        last ∧
      EveryStep (Restrict Step LeavesNamed) WakesUpTarget
        (bootedWith [samplePeer]) wakeupAfterBoot last := by
  refine ⟨_, .cons ⟨rfl, ?_⟩ (.cons ⟨rfl, ?_⟩ (.cons ⟨rfl, trivial⟩ (.nil _))),
    wakeup_names_target (bootedWith_booted [samplePeer])⟩
  · intro _ _ queued
    cases queued
  · exact fun _ _ => .inr (by decide)

/-- With another bond the wakeup names the peer that stands in the source. -/
theorem other_bond_is_not_woken_up : ∃ last,
    Path Step (bootedWith [otherPeer]) wakeupAfterBoot last ∧
      ¬ EveryStep Step WakesUpTarget (bootedWith [otherPeer]) wakeupAfterBoot
        last := by
  refine ⟨_, path_of_execute rfl, ?_⟩
  intro every
  have begins : Path Step (bootedWith [otherPeer])
      [.startBegin true 0 0, .startEnd 0] _ := path_of_execute rfl
  have target := every _ (.advWork 0) [] _ _ rfl begins rfl (.nil _)
  exact absurd (target _ ⟨rfl, rfl⟩ (by decide)) (by decide)

end BleRc

end SzpiSta
