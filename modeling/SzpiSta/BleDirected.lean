import SzpiSta.BleRc

/-!
# Whom is advertising directed at?

`advertising_start` takes the target from the bonds and leaves the rest to
`adv_work`, which reads the address when it runs.  In between, `connected` writes
the address of whoever connected, or failed to, into the same variable.  Without
such a callback the target is a bond of the identity in use.
-/

namespace SzpiSta

namespace BleRc

open TransitionPaths

/-- The step asks the controller to direct advertising at the target. -/
def DirectsAt (target : BtAddrLe) (s : BleSystem) : Label → Prop
  | .advWork _ =>
      s.ble.isAdvRunning = false ∧ s.ble.advParam.kind = .direct target
  | _ => False

def BleState.Bonded (s : BleState) (addr : BtAddrLe) : Prop :=
  addr ∈ s.bonds s.identity

/-- Whomever the step directs advertising at is bonded. -/
def DirectsAtBonded (before : BleSystem) (label : Label) (_ : BleSystem) :
    Prop :=
  ∀ target, DirectsAt target before label → before.ble.Bonded target

/-- If the step delivers a connection while `adv_work` is queued, its peer is
bonded or unknown. -/
def NoStranger (s : BleSystem) : Label → Prop
  | .callback =>
      s.ble.advWork = true → ∀ addr err callbacks,
        s.ble.callbacks = .connected (some addr) err :: callbacks →
        s.ble.Bonded addr
  | _ => True

/-- While `adv_work` is queued, the address it will read is a bond or none. -/
def TargetKnown (s : BleState) : Prop :=
  s.advWork = true →
    s.gRcLastPairedAddr = btAddrLeNone ∨ s.Bonded s.gRcLastPairedAddr

section Target

variable {s : BleState}

theorem foldl_last_mem (addrs : List BtAddrLe) (first : BtAddrLe) :
    addrs.foldl (fun _ addr => addr) first = first ∨
      addrs.foldl (fun _ addr => addr) first ∈ addrs := by
  induction addrs generalizing first with
  | nil => exact .inl rfl
  | cons addr addrs ih =>
      rw [List.foldl_cons]
      rcases ih addr with same | member
      · rw [same]
        exact .inr List.mem_cons_self
      · exact .inr (List.mem_cons_of_mem _ member)

theorem BleState.lastBond_known (s : BleState) :
    s.lastBond = btAddrLeNone ∨ s.Bonded s.lastBond :=
  foldl_last_mem _ _

/-- A new bond goes behind the others. -/
theorem BleState.Bonded.addBond {addr : BtAddrLe} (bonded : s.Bonded addr)
    (new : BtAddrLe) : (addBond new s).Bonded addr := by
  have more : (BleRc.addBond new s).bonds s.identity =
      s.bonds s.identity ++ [new] := by
    simp [BleRc.addBond]
  change addr ∈ (BleRc.addBond new s).bonds s.identity
  rw [more]
  exact List.mem_append_left _ bonded

theorem targetKnown_advertisingStop (known : TargetKnown s) (err : Int) :
    TargetKnown (advertisingStop err s).2 := by
  rcases advertisingStop_frame err s with same | same
  · rw [same]
    exact known
  · rw [same]
    exact known

theorem targetKnown_advertisingStart (s : BleState) :
    TargetKnown (advertisingStart s) := by
  rw [advertisingStart_eq]
  exact fun _ => s.lastBond_known

theorem TargetKnown.step {s s' : BleSystem} {label : Label}
    (known : TargetKnown s.ble) (taken : Step s label s')
    (noStranger : NoStranger s label) : TargetKnown s'.ble := by
  cases step_effect taken with
  | startBegin isWakeup timeS stopErr =>
      dsimp only [tryAdvertisingStartBegin]
      apply targetKnown_advertisingStop
      exact known
  | stop stopErr => exact targetKnown_advertisingStop known stopErr
  | switchBegin stopErr queued free =>
      dsimp only [advModeSwitchHandlerBegin]
      apply targetKnown_advertisingStop
      exact known
  | startEnd sleeper timeS asleep =>
      rw [tryAdvertisingStartEnd_eq]
      exact fun _ => s.ble.lastBond_known
  | deletePaired unpairErr stopErr => exact fun _ => .inl rfl
  | advWork startErr queued free =>
      intro again
      simp only [advertisingProcess, advertisingContinue] at again
      split at again
      · cases again
      · split at again <;> cases again
  | switchEnd asleep =>
      dsimp only [advModeSwitchHandlerEnd]
      split
      · exact targetKnown_advertisingStart _
      · exact known
  | callback callback callbacks waits =>
      cases callback with
      | disconnected dst => cases dst <;> exact known
      | connected dst err =>
          obtain ⟨feData, same⟩ := connected_eq dst err { s.ble with callbacks }
          dsimp only [deliver]
          rw [same]
          intro queued
          cases dst with
          | none => exact known queued
          | some peer => exact .inr (noStranger queued peer err callbacks waits)
  | securityChanged err hasLink =>
      dsimp only [securityChangedCb]
      split <;> exact known
  | timerExpires | advEnds | linkLost => exact known
  | bonded addr =>
      intro queued
      exact (known queued).imp id fun bonded => bonded.addBond addr

theorem target_of_directsAt {s : BleSystem} {label : Label} {target : BtAddrLe}
    (directs : DirectsAt target s label) :
    s.ble.gRcLastPairedAddr = target ∧ target ≠ btAddrLeNone := by
  cases label with
  | advWork startErr =>
      obtain ⟨-, kind⟩ := directs
      simp only [BleState.advParam] at kind
      split at kind
      · split at kind
        · cases kind
        · rename_i notNone
          cases kind
          exact ⟨rfl, notNone⟩
      · cases kind
  | _ => exact directs.elim

theorem TargetKnown.directsAtBonded {s s' : BleSystem} {label : Label}
    (known : TargetKnown s.ble) (taken : Step s label s') :
    DirectsAtBonded s label s' := by
  intro target directs
  obtain ⟨rfl, notNone⟩ := target_of_directsAt directs
  cases step_effect taken with
  | advWork startErr queued free => exact (known queued).resolve_left notNone
  | _ => exact directs.elim

end Target

/-- In every run in which no stranger's connection is delivered while `adv_work`
is queued, advertising is directed at bonded peers only. -/
theorem directed_at_bonded {boot last : BleSystem} {labels : List Label}
    (booted : Booted boot) :
    EveryStep (Restrict Step NoStranger) DirectsAtBonded boot labels last := by
  have fromBoot : TargetKnown boot.ble := by
    intro queued
    rw [booted.advWork] at queued
    cases queued
  exact everyStep_of_invariant (fun s => TargetKnown s.ble)
    (fun _ _ _ known taken => known.step taken.1 taken.2)
    (fun _ _ _ known taken => known.directsAtBonded taken.1) fromBoot

/-- A stranger's connection while `adv_work` is queued: unless a wake-up is
asked for or the queue is busy, the next step may be directed at the stranger. -/
theorem stranger_directs {s s' : BleSystem} {addr : BtAddrLe} {err : UInt8}
    {callbacks : List Callback} (taken : Step s .callback s')
    (waits : s.ble.callbacks = .connected (some addr) err :: callbacks)
    (queued : s.ble.advWork = true) (notNone : addr ≠ btAddrLeNone)
    (pairing : s.ble.gWakeupAdvMode = false) (free : s.switching = false)
    (stranger : ¬ s.ble.Bonded addr) :
    ∃ s'', Step s' (.advWork 0) s'' ∧
      ¬ DirectsAtBonded s' (.advWork 0) s'' := by
  have delivered : s' = { s with
      ble := connected (some addr) err { s.ble with callbacks } } := by
    have taken : step .callback s = some s' := taken
    rw [step, waits] at taken
    exact (Option.some.inj taken).symm
  obtain ⟨feData, same⟩ := connected_eq (some addr) err { s.ble with callbacks }
  rw [same] at delivered
  subst delivered
  refine ⟨_, if_pos ⟨queued, by simp [free]⟩, fun bonded => ?_⟩
  refine stranger (bonded addr ⟨rfl, ?_⟩)
  simp [BleState.advParam, pairing, notNone]

/-- A first advertisement that a peer answers, and a second start before the
connection is delivered. -/
def answered (dst : BtAddrLe) (err : UInt8) : List Label :=
  [.startBegin false 5 0, .startEnd 0, .advWork 0, .advEnds (some dst) err,
    .startBegin false 5 0, .startEnd 0]

theorem bonded_peer_is_directed_at : ∃ last,
    Path (Restrict Step NoStranger) (bootedWith [samplePeer])
        (answered samplePeer 0 ++ [.callback, .advWork 0]) last ∧
      EveryStep (Restrict Step NoStranger) DirectsAtBonded
        (bootedWith [samplePeer])
        (answered samplePeer 0 ++ [.callback, .advWork 0]) last := by
  have begins : ∀ state, ∀ label ∈ answered samplePeer 0,
      NoStranger state label := by
    intro state label member
    simp only [answered, List.mem_cons, List.not_mem_nil, or_false] at member
    rcases member with rfl | rfl | rfl | rfl | rfl | rfl <;> trivial
  have starts : Path Step (bootedWith [samplePeer]) (answered samplePeer 0) _ :=
    path_of_execute rfl
  refine ⟨_, (starts.restrict NoStranger begins).append
    (.cons ⟨rfl, ?_⟩ (.cons ⟨rfl, trivial⟩ (.nil _))),
    directed_at_bonded (bootedWith_booted [samplePeer])⟩
  rintro - addr err callbacks ⟨⟩
  exact List.mem_cons_self

/-- A stranger answers, fails to connect with error 0x3e, and is advertised
at. -/
theorem stranger_is_directed_at : ∃ before last,
    Path Step (bootedWith []) (answered samplePeer 0x3e ++ [.callback])
        before ∧
      Step before (.advWork 0) last ∧
      ¬ DirectsAtBonded before (.advWork 0) last := by
  refine ⟨_, _, path_of_execute rfl, rfl, fun bonded => ?_⟩
  have member := bonded samplePeer ⟨rfl, by decide⟩
  exact List.not_mem_nil member

end BleRc

end SzpiSta
