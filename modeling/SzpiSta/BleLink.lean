import SzpiSta.BleRc

/-!
# Does `g_btrc_st` tell of a link?

The status is set by the callbacks, so it lags behind the links.  It still never
tells of a link that has not been there: as long as it is not
`BTRC_ST_DISCONNECTE`, a link is up or the callback that reports its end waits.
So when the handler of the mode switch has restarted advertising by the status,
the flag `is_adv_running` is set, or advertising is queued, or the remote control
has a link.  Of the controller itself this says nothing: the flag may be set
while it is silent.
-/

namespace SzpiSta

namespace BleRc

open TransitionPaths

/-- The callback of a connection that was established. -/
def Callback.established : Callback → Bool
  | .connected _ err => err = 0
  | .disconnected _ => false

/-- Every connection that is still to be reported has a link, or the report of
its end waits behind it. -/
def Covered (links : Nat) : List Callback → Prop
  | [] => True
  | callback :: callbacks =>
      (callback :: callbacks).countP Callback.established ≤
          links + (callback :: callbacks).countP Callback.isDisconnected ∧
        Covered links callbacks

/-- A callback joins the queue while the number of links changes. -/
theorem Covered.join {links links' : Nat} {callbacks : List Callback}
    (covered : Covered links callbacks) (callback : Callback)
    (enough : links + [callback].countP Callback.established ≤
      links' + [callback].countP Callback.isDisconnected) :
    Covered links' (callbacks ++ [callback]) := by
  induction callbacks with
  | nil => exact ⟨Nat.le_trans (Nat.le_add_left _ links) enough, trivial⟩
  | cons head callbacks ih =>
      have counted := covered.1
      refine ⟨?_, ih covered.2⟩
      change ((head :: callbacks) ++ [callback]).countP _ ≤
        links' + ((head :: callbacks) ++ [callback]).countP _
      rw [List.countP_append, List.countP_append]
      omega

/-- The invariant.  Of no link is the peer unknown. -/
structure LinkKept (s : BleState) : Prop where
  covered : Covered s.connections.length s.callbacks
  knownLinks : none ∉ s.connections
  knownCallbacks : Callback.disconnected none ∉ s.callbacks
  reported : s.gBtrcSt ≠ .disconnecte → s.hasLink = true

/-- Every connection that is established has a known peer. -/
def KnownPeer (_ : BleSystem) (label : Label) : Prop :=
  label ≠ .advEnds none 0

instance : ∀ state label, Decidable (KnownPeer state label) :=
  fun _ label => inferInstanceAs (Decidable (label ≠ .advEnds none 0))

section Functions

variable {s t : BleState} {callback : Callback} {callbacks : List Callback}

/-- A link is up, or its end is to be reported. -/
theorem hasLink_iff :
    s.hasLink = true ↔
      0 < s.connections.length + s.callbacks.countP Callback.isDisconnected := by
  have reported : s.callbacks.any Callback.isDisconnected = true ↔
      0 < s.callbacks.countP Callback.isDisconnected := by
    rw [List.countP_pos_iff, List.any_eq_true]
  have up : s.connections ≠ [] ↔ 0 < s.connections.length :=
    List.length_pos_iff.symm
  simp only [BleState.hasLink, Bool.or_eq_true, decide_eq_true_eq]
  rw [reported, up]
  omega

theorem LinkKept.frame (kept : LinkKept s)
    (connections : t.connections = s.connections)
    (callbacks : t.callbacks = s.callbacks) (status : t.gBtrcSt = s.gBtrcSt) :
    LinkKept t := by
  have sameLink : t.hasLink = s.hasLink := by
    simp only [BleState.hasLink, connections, callbacks]
  constructor
  · rw [connections, callbacks]
    exact kept.covered
  · rw [connections]
    exact kept.knownLinks
  · rw [callbacks]
    exact kept.knownCallbacks
  · rw [status, sameLink]
    exact kept.reported

theorem LinkKept.advertisingStop {err : Int} (kept : LinkKept s) :
    LinkKept (advertisingStop err s).2 :=
  kept.frame advertisingStop_connections advertisingStop_callbacks
    advertisingStop_gBtrcSt

theorem LinkKept.advertisingStart (kept : LinkKept s) :
    LinkKept (advertisingStart s) := by
  rw [advertisingStart_eq]
  exact kept.frame rfl rfl rfl

theorem LinkKept.cmdDeletePaired {unpairErr stopErr : Int} (kept : LinkKept s) :
    LinkKept (cmdDeletePaired unpairErr stopErr s) := by
  have unpaired : LinkKept (tryUnpair unpairErr s.gRcLastPairedAddr s) := by
    unfold tryUnpair
    split
    · exact kept
    · exact kept.frame rfl rfl rfl
  exact unpaired.advertisingStop.frame rfl rfl rfl

theorem LinkKept.advertisingContinue {err : Int} (kept : LinkKept s) :
    LinkKept (advertisingContinue err s) := by
  unfold BleRc.advertisingContinue
  split
  · exact kept
  split
  · exact kept
  · exact kept.frame rfl rfl rfl

theorem LinkKept.advModeSwitchHandlerEnd (kept : LinkKept s) :
    LinkKept (advModeSwitchHandlerEnd s) := by
  rw [advModeSwitchHandlerEnd_eq]
  split
  · exact kept.frame rfl rfl rfl
  · exact kept.frame rfl rfl rfl

/-- The head of the queue is delivered. -/
theorem LinkKept.deliver (kept : LinkKept s)
    (waits : s.callbacks = callback :: callbacks) :
    LinkKept (deliver callback { s with callbacks }) := by
  have covered := kept.covered
  rw [waits] at covered
  have known := kept.knownCallbacks
  rw [waits] at known
  have behind : Callback.disconnected none ∉ callbacks := fun member =>
    known (.tail _ member)
  cases callback with
  | disconnected dst =>
      cases dst with
      | none => exact (known (.head _)).elim
      | some dstAddr =>
          exact ⟨covered.2, kept.knownLinks, behind, fun up => (up rfl).elim⟩
  | connected dst err =>
      obtain ⟨feData, same⟩ := connected_eq dst err { s with callbacks }
      have counted := covered.1
      simp only [BleRc.deliver, same]
      refine ⟨covered.2, kept.knownLinks, behind, fun up => ?_⟩
      rw [hasLink_iff]
      dsimp only at up ⊢
      by_cases established : err = 0
      · -- The connection is one of those that are covered.
        simp only [List.countP_cons, Callback.established,
          Callback.isDisconnected, established, decide_true, if_true] at counted
        simp only [Bool.false_eq_true, if_false] at counted
        omega
      · rw [if_neg established] at up
        have before := hasLink_iff.mp (kept.reported up)
        rw [waits] at before
        simpa [List.countP_cons, Callback.isDisconnected] using before

theorem LinkKept.advertisingEnds {dst : Option BtAddrLe} {err : UInt8}
    (kept : LinkKept s) (known : ¬ (dst = none ∧ err = 0)) :
    LinkKept (advertisingEnds dst err s) := by
  constructor
  · apply kept.covered.join
    unfold BleRc.advertisingEnds
    by_cases established : err = 0
    · simp [established, Callback.established, Callback.isDisconnected]
    · simp [established, Callback.established, Callback.isDisconnected]
  · unfold BleRc.advertisingEnds
    dsimp only
    split
    · rename_i established
      intro member
      rcases List.mem_cons.mp member with unknown | member
      · exact known ⟨unknown.symm, established⟩
      · exact kept.knownLinks member
    · exact kept.knownLinks
  · intro member
    rcases List.mem_append.mp member with member | member
    · exact kept.knownCallbacks member
    · cases List.mem_singleton.mp member
  · intro up
    have before := hasLink_iff.mp (kept.reported up)
    rw [hasLink_iff]
    unfold BleRc.advertisingEnds
    dsimp only
    rw [List.countP_append]
    split
    · rw [List.length_cons]
      omega
    · omega

theorem LinkKept.linkEnds {link : Nat} {dst : Option BtAddrLe}
    (kept : LinkKept s) (live : s.connections[link]? = some dst) :
    LinkKept (linkEnds link dst s) := by
  obtain ⟨inside, found⟩ := List.getElem?_eq_some_iff.mp live
  have isLink : dst ∈ s.connections := found ▸ List.getElem_mem inside
  have shorter := List.length_eraseIdx_of_lt inside
  constructor
  · apply kept.covered.join
    simp only [BleRc.linkEnds, shorter, List.countP_singleton,
      Callback.established, Callback.isDisconnected]
    simp only [Bool.false_eq_true, if_false, if_true]
    omega
  · exact fun member => kept.knownLinks (List.mem_of_mem_eraseIdx member)
  · intro member
    rcases List.mem_append.mp member with member | member
    · exact kept.knownCallbacks member
    · cases List.mem_singleton.mp member
      exact kept.knownLinks isLink
  · intro _
    simp [BleState.hasLink, BleRc.linkEnds, Callback.isDisconnected]

end Functions

section Runs

variable {start s s' : BleSystem} {label : Label} {labels : List Label}

/-- The step lemma. -/
theorem LinkKept.step (kept : LinkKept s.ble) (taken : Step s label s')
    (known : KnownPeer s label) : LinkKept s'.ble := by
  cases step_effect taken with
  | startBegin isWakeup timeS stopErr =>
      apply LinkKept.advertisingStop
      exact kept.frame rfl rfl rfl
  | startEnd sleeper timeS asleep =>
      rw [tryAdvertisingStartEnd_eq]
      exact kept.frame rfl rfl rfl
  | stop stopErr => exact kept.advertisingStop
  | deletePaired unpairErr stopErr => exact kept.cmdDeletePaired
  | advWork startErr queued free =>
      apply LinkKept.advertisingContinue
      exact kept.frame rfl rfl rfl
  | timerExpires armed => exact kept.frame rfl rfl rfl
  | switchBegin stopErr queued free =>
      apply LinkKept.advertisingStop
      exact kept.frame rfl rfl rfl
  | switchEnd asleep => exact kept.advModeSwitchHandlerEnd
  | callback callback callbacks waits => exact kept.deliver waits
  | securityChanged err hasLink =>
      dsimp only [securityChangedCb]
      split
      · exact ⟨kept.covered, kept.knownLinks, kept.knownCallbacks,
          fun _ => hasLink⟩
      · exact kept
  | advEnds dst err canEnd =>
      apply kept.advertisingEnds
      rintro ⟨rfl, rfl⟩
      exact known rfl
  | linkLost link dst live => exact kept.linkEnds live
  | bonded addr => exact kept.frame rfl rfl rfl

theorem linkKept_of_booted (booted : Booted start) : LinkKept start.ble := by
  constructor
  · rw [booted.callbacks]
    trivial
  · rw [booted.connections]
    exact List.not_mem_nil
  · rw [booted.callbacks]
    exact List.not_mem_nil
  · rw [booted.gBtrcSt]
    exact fun up => (up rfl).elim

theorem linkKept_of_run (booted : Booted start)
    (run : Path (Restrict Step KnownPeer) start labels s) : LinkKept s.ble :=
  run.invariant (fun s => LinkKept s.ble)
    (fun _ _ _ kept taken => kept.step taken.1 taken.2)
    (linkKept_of_booted booted)

end Runs

/-- In every run from boot in which no peer is unknown: a status other than
disconnected tells of a link that is up or whose end is about to be reported,
and the handler of the mode switch leaves the flag `is_adv_running` cleared and
advertising not queued only with such a link. -/
theorem status_tells_of_link {start s : BleSystem} {labels : List Label}
    (booted : Booted start)
    (run : Path (Restrict Step KnownPeer) start labels s) :
    (s.ble.gBtrcSt ≠ .disconnecte → s.ble.hasLink = true) ∧
      ∀ s', Step s .switchEnd s' →
        s'.ble.isAdvRunning = true ∨ s'.ble.advWork = true ∨
          s'.ble.hasLink = true := by
  have kept := linkKept_of_run booted run
  refine ⟨kept.reported, fun s' taken => ?_⟩
  cases step_effect taken with
  | switchEnd asleep =>
      rw [advModeSwitchHandlerEnd_eq]
      by_cases down : s.ble.gBtrcSt = .disconnecte
      · rw [if_pos down]
        cases running : s.ble.isAdvRunning with
        | true => exact .inl rfl
        | false => exact .inr (.inl (by simp))
      · rw [if_neg down]
        exact .inr (.inr (kept.reported down))

/-- A peer connects and the link becomes secure. -/
def connectsSecurely : List Label :=
  [.startBegin false 0 0, .startEnd 0, .advWork 0, .advEnds (some samplePeer) 0,
    .callback, .securityChanged 0]

theorem secured_status_tells_of_link : ∃ s,
    Path (Restrict Step KnownPeer) (bootedWith []) connectsSecurely s ∧
      s.ble.gBtrcSt = .securityLvOk ∧ s.ble.hasLink = true := by
  have run : Path (Restrict Step KnownPeer) (bootedWith []) connectsSecurely _ :=
    path_restrict_of_execute rfl
  refine ⟨_, run, rfl, ?_⟩
  exact (status_tells_of_link (bootedWith_booted []) run).1 nofun

end BleRc

end SzpiSta
