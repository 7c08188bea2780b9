import SzpiSta.BleDirected

/-!
# Whether `delete_paired` deletes anything

The command unpairs the address in `g_rc_last_paired_addr`, whatever stands
there: none after boot and after an earlier `delete_paired`, and the address of
whoever connected last.  It removes a bond exactly if a bond, or the address for
all, stands there.
-/

namespace SzpiSta

namespace BleRc

open TransitionPaths

/-- A `delete_paired` whose `bt_unpair` succeeds removes a bond if there is
one. -/
def DeletesBond (before : BleSystem) (label : Label) (after : BleSystem) :
    Prop :=
  ∀ stopErr, label = .deletePaired 0 stopErr →
    before.ble.bonds before.ble.identity ≠ [] →
    ∃ addr, before.ble.Bonded addr ∧ ¬ after.ble.Bonded addr

/-- A `delete_paired` finds the address of a bond, or the one for all, unless
there is no bond. -/
def FindsBondAddr (s : BleSystem) (label : Label) : Prop :=
  ∀ stopErr, label = .deletePaired 0 stopErr →
    s.ble.bonds s.ble.identity = [] ∨ s.ble.gRcLastPairedAddr = btAddrLeAny ∨
      s.ble.Bonded s.ble.gRcLastPairedAddr

section Delete

variable {s : BleState} {stopErr : Int}

@[simp]
theorem advertisingStop_bonds (err : Int) (s : BleState) :
    (advertisingStop err s).2.bonds = s.bonds := by
  rcases advertisingStop_frame err s with same | same <;> rw [same]

/-- The bonds that a `delete_paired` keeps. -/
theorem bonded_cmdDeletePaired_iff {addr : BtAddrLe} :
    (cmdDeletePaired 0 stopErr s).Bonded addr ↔
      s.Bonded addr ∧ s.gRcLastPairedAddr ≠ btAddrLeAny ∧
        addr ≠ s.gRcLastPairedAddr := by
  simp [cmdDeletePaired, BleState.Bonded, BleState.identity, tryUnpair]

theorem removes_iff (some : s.bonds s.identity ≠ []) :
    (∃ addr, s.Bonded addr ∧ ¬ (cmdDeletePaired 0 stopErr s).Bonded addr) ↔
      s.gRcLastPairedAddr = btAddrLeAny ∨ s.Bonded s.gRcLastPairedAddr := by
  simp only [bonded_cmdDeletePaired_iff]
  constructor
  · rintro ⟨addr, bonded, removed⟩
    by_cases all : s.gRcLastPairedAddr = btAddrLeAny
    · exact .inl all
    · by_cases same : addr = s.gRcLastPairedAddr
      · exact .inr (same ▸ bonded)
      · exact (removed ⟨bonded, all, same⟩).elim
  · rintro (all | bonded)
    · obtain ⟨addr, bonded⟩ := List.exists_mem_of_ne_nil _ some
      exact ⟨addr, bonded, fun kept => kept.2.1 all⟩
    · exact ⟨_, bonded, fun kept => kept.2.2 rfl⟩

theorem deletesBond_iff {before after : BleSystem} {label : Label}
    (taken : Step before label after) :
    DeletesBond before label after ↔ FindsBondAddr before label := by
  constructor
  · rintro deletes stopErr rfl
    cases step_effect taken with
    | deletePaired =>
        by_cases none : before.ble.bonds before.ble.identity = []
        · exact .inl none
        · exact .inr ((removes_iff none).mp (deletes stopErr rfl none))
  · rintro finds stopErr rfl some
    cases step_effect taken with
    | deletePaired =>
        exact (removes_iff some).mpr ((finds stopErr rfl).resolve_left some)

end Delete

section Writers

variable {before after : BleSystem}

/-- Once a bond's address stands there, it stays unless it is unpaired or a
stranger connects, or fails to. -/
def KeepsAddr (s : BleSystem) : Label → Prop
  | .deletePaired _ _ => False
  | .callback => ∀ addr err callbacks,
      s.ble.callbacks = .connected (some addr) err :: callbacks →
      s.ble.Bonded addr
  | _ => True

def AddrBonded (s : BleState) : Prop := s.Bonded s.gRcLastPairedAddr

theorem addrBonded_advertisingStop {s : BleState} (bonded : AddrBonded s)
    (err : Int) : AddrBonded (advertisingStop err s).2 := by
  rcases advertisingStop_frame err s with same | same
  · rw [same]
    exact bonded
  · rw [same]
    exact bonded

/-- The bond visited last, of bonds that are some. -/
theorem BleState.lastBond_bonded {s : BleState}
    (some : s.bonds s.identity ≠ []) : s.Bonded s.lastBond := by
  unfold BleState.Bonded BleState.lastBond
  generalize s.bonds s.identity = addrs at some
  cases addrs with
  | nil => exact absurd rfl some
  | cons addr addrs =>
      rw [List.foldl_cons]
      rcases foldl_last_mem addrs addr with same | member
      · rw [same]
        exact List.mem_cons_self
      · exact List.mem_cons_of_mem _ member

theorem addrBonded_of_started {sleeper : Nat}
    (started : Step before (.startEnd sleeper) after)
    (some : before.ble.bonds before.ble.identity ≠ []) :
    AddrBonded after.ble := by
  cases step_effect started with
  | startEnd =>
      rw [tryAdvertisingStartEnd_eq]
      exact BleState.lastBond_bonded some

theorem AddrBonded.step {label : Label} (bonded : AddrBonded before.ble)
    (taken : Step before label after) (keeps : KeepsAddr before label) :
    AddrBonded after.ble := by
  have some : before.ble.bonds before.ble.identity ≠ [] :=
    List.ne_nil_of_mem bonded
  cases step_effect taken with
  | startBegin isWakeup timeS stopErr =>
      exact addrBonded_advertisingStop (s := {
        before.ble with
        advModeSwitchWork := before.ble.advModeSwitchWork.cancel
        gWakeupAdvMode := isWakeup }) bonded stopErr
  | startEnd sleeper timeS asleep => exact addrBonded_of_started taken some
  | deletePaired unpairErr stopErr => exact keeps.elim
  | stop stopErr => exact addrBonded_advertisingStop bonded stopErr
  | advWork startErr queued free =>
      simp only [advertisingProcess, advertisingContinue]
      split
      · exact bonded
      · split <;> exact bonded
  | switchBegin stopErr queued free =>
      exact addrBonded_advertisingStop (s := {
        before.ble with
        advModeSwitchWork := before.ble.advModeSwitchWork.take }) bonded stopErr
  | switchEnd asleep =>
      rw [advModeSwitchHandlerEnd_eq]
      split
      · exact BleState.lastBond_bonded some
      · exact bonded
  | callback callback callbacks waits =>
      cases callback with
      | connected dst err =>
          obtain ⟨feData, same⟩ :=
            connected_eq dst err { before.ble with callbacks }
          cases dst with
          | none =>
              rw [deliver, same]
              exact bonded
          | some addr =>
              rw [deliver, same]
              exact keeps addr err callbacks waits
      | disconnected dst => cases dst <;> exact bonded
  | securityChanged err hasLink =>
      simp only [securityChangedCb]
      split <;> exact bonded
  | bonded addr => exact BleState.Bonded.addBond bonded addr
  | timerExpires | advEnds | linkLost => exact bonded

/-- An advertising start has found a bond, and since then the address was not
unpaired and no stranger has connected, or failed to. -/
def StartedSince (s : BleSystem) : Prop :=
  ∃ before sleeper started labels,
    Step before (.startEnd sleeper) started ∧
      before.ble.bonds before.ble.identity ≠ [] ∧
      Path (Restrict Step KeepsAddr) started labels s

theorem startedSince_of_start {sleeper : Nat}
    (start : Step before (.startEnd sleeper) after)
    (some : before.ble.bonds before.ble.identity ≠ []) : StartedSince after :=
  ⟨before, sleeper, after, [], start, some, .nil _⟩

theorem StartedSince.addrBonded (since : StartedSince before) :
    AddrBonded before.ble := by
  obtain ⟨earlier, sleeper, started, labels, start, some, path⟩ := since
  exact path.invariant (fun s => AddrBonded s.ble)
    (fun _ _ _ bonded taken => bonded.step taken.1 taken.2)
    (addrBonded_of_started start some)

/-- After a `delete_paired` the address is that of no bond, whatever bonds are
left. -/
theorem not_findsBondAddr_of_deleted {unpairErr stopErr againErr : Int}
    (deleted : Step before (.deletePaired unpairErr stopErr) after)
    (left : after.ble.bonds after.ble.identity ≠ [])
    (noneUnbonded : ¬ after.ble.Bonded btAddrLeNone) :
    ¬ FindsBondAddr after (.deletePaired 0 againErr) := by
  have none : after.ble.gRcLastPairedAddr = btAddrLeNone := by
    cases step_effect deleted with
    | deletePaired => rfl
  intro finds
  rcases finds againErr rfl with empty | any | bonded
  · exact left empty
  · rw [none] at any
    exact absurd any (by decide)
  · rw [none] at bonded
    exact noneUnbonded bonded

end Writers

/-- In a run from any state: every `delete_paired` whose `bt_unpair` succeeds
removes a bond if there is one, exactly if each finds a bond's address, or the
address for all.  It finds one from an advertising start that has found a bond
until the address is unpaired or a stranger connects, and after a
`delete_paired` the next one finds none, whatever bonds are left. -/
theorem delete_removes_bond_iff (first last : BleSystem)
    (labels : List Label) :
    (EveryStep Step DeletesBond first labels last ↔
      EveryStep Step (fun before label _ => FindsBondAddr before label) first
        labels last) ∧
    (∀ before label after, StartedSince before → Step before label after →
      DeletesBond before label after) ∧
    (∀ before deleted after unpairErr stopErr againErr,
      Step before (.deletePaired unpairErr stopErr) deleted →
      deleted.ble.bonds deleted.ble.identity ≠ [] →
      ¬ deleted.ble.Bonded btAddrLeNone →
      Step deleted (.deletePaired 0 againErr) after →
      ¬ DeletesBond deleted (.deletePaired 0 againErr) after) := by
  refine ⟨everyStep_congr fun _ _ _ taken => deletesBond_iff taken, ?_, ?_⟩
  · intro before label after since taken
    exact (deletesBond_iff taken).mpr fun _ _ => .inr (.inr since.addrBonded)
  · intro before deleted after unpairErr stopErr againErr first left noneUnbonded
      again deletes
    exact not_findsBondAddr_of_deleted first left noneUnbonded
      ((deletesBond_iff again).mp deletes)

theorem delete_after_start_removes_bond : ∃ started last,
    Path Step (bootedWith [samplePeer]) [.startBegin false 5 0, .startEnd 0]
        started ∧
      Step started (.deletePaired 0 0) last ∧
      ∃ addr, started.ble.Bonded addr ∧ ¬ last.ble.Bonded addr := by
  have some : [samplePeer] ≠ [] := List.cons_ne_nil _ _
  have run : Path Step (bootedWith [samplePeer])
      [.startBegin false 5 0, .startEnd 0] _ := path_of_execute rfl
  obtain ⟨asleep, begins, ends⟩ := path_cons_iff.mp run
  obtain rfl := Option.some.inj begins
  have since := startedSince_of_start (path_singleton_iff.mp ends) some
  obtain ⟨-, removes, -⟩ := delete_removes_bond_iff (bootedWith [samplePeer])
    (bootedWith [samplePeer]) []
  exact ⟨_, _, run, rfl, removes _ (.deletePaired 0 0) _ since rfl 0 rfl some⟩

/-- The bond is there at boot, and `delete_paired` leaves it. -/
theorem delete_after_boot_removes_nothing :
    ∃ last, Path Step (bootedWith [samplePeer]) [.deletePaired 0 0] last ∧
      (bootedWith [samplePeer]).ble.Bonded samplePeer ∧
      ¬ EveryStep Step DeletesBond (bootedWith [samplePeer])
        [.deletePaired 0 0] last := by
  have taken : Step (bootedWith [samplePeer]) (.deletePaired 0 0) _ := rfl
  refine ⟨_, path_singleton_iff.mpr taken, List.mem_cons_self, ?_⟩
  intro every
  have found : FindsBondAddr (bootedWith [samplePeer]) (.deletePaired 0 0) :=
    (deletesBond_iff taken).mp (every [] _ [] _ _ rfl (.nil _) taken (.nil _))
  rcases found 0 rfl with empty | any | bonded
  · exact absurd empty (by decide)
  · exact absurd any (by decide)
  · have same : btAddrLeNone = samplePeer := List.mem_singleton.mp bonded
    exact absurd same (by decide)

end BleRc

end SzpiSta
