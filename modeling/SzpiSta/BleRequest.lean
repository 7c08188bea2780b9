import SzpiSta.BleRc

/-!
# Is a request to advertise lost?

`try_advertising_start` sets the mode before its sleep and submits the start
after it.  A mode switch handler that is already asleep cannot be cancelled; it
resets the mode before the submitted start can run.  So a request for wakeup
advertising is lost exactly if it comes while the handler sleeps, and a request
for pairing never is.
-/

namespace SzpiSta

namespace BleRc

open TransitionPaths

def AdvKind.isWakeup : AdvKind → Bool
  | .wakeup _ => true
  | _ => false

/-- The controller advertises in the requested mode. -/
def Served (isWakeup : Bool) (s : BleSystem) : Prop :=
  ∃ adv, s.ble.advertising = some adv ∧ adv.kind.isWakeup = isWakeup

/-- The steps that may come after the first part of the call: its second part,
the work handlers, all of whose calls succeed, and, until the call has returned,
a mode switch. -/
def DuringCall (s : BleSystem) : Label → Prop
  | .startEnd _ | .switchEnd => True
  | .advWork startErr => startErr = 0
  | .timerExpires => s.starting ≠ []
  | .switchBegin stopErr => stopErr = 0 ∧ s.starting ≠ []
  | _ => False

/-- However the steps are interleaved, once the call has returned and no start
is queued, the request is served. -/
def NeverLost (s : BleSystem) (isWakeup : Bool) (timeS : Int32) : Prop :=
  ∀ called labels last, Step s (.startBegin isWakeup timeS 0) called →
    Path (Restrict Step DuringCall) called labels last →
    last.starting = [] → last.ble.advWork = false → Served isWakeup last

/-- The invariant of an interleaving that serves the request. -/
structure Serving (isWakeup : Bool) (s : BleSystem) : Prop where
  mode : s.ble.gWakeupAdvMode = isWakeup
  notSwitching : isWakeup = true → s.switching = false
  onAir : s.ble.isAdvRunning = true → Served isWakeup s
  alone : s.starting.length ≤ 1
  submitted : s.starting = [] →
    s.ble.isAdvRunning = true ∨ s.ble.advWork = true
  cancelled : s.starting ≠ [] → ¬ s.ble.advModeSwitchWork.Pending

section Interleaving

variable {s s' : BleSystem} {isWakeup : Bool} {timeS : Int32} {label : Label}

theorem advParam_isWakeup (s : BleState) :
    s.advParam.kind.isWakeup = s.gWakeupAdvMode := by
  unfold BleState.advParam
  dsimp only
  split
  case isTrue normal =>
    rw [normal]
    split <;> rfl
  case isFalse wakeup =>
    simpa [AdvKind.isWakeup] using wakeup

theorem Serving.start (alone : s.starting = [])
    (free : isWakeup = true → s.switching = false)
    (taken : Step s (.startBegin isWakeup timeS 0) s') : Serving isWakeup s' := by
  cases step_effect taken
  have stopped := tryAdvertisingStartBegin_stopped isWakeup s.ble
  refine ⟨?_, free, ?_, ?_, ?_, ?_⟩
  · simp [tryAdvertisingStartBegin]
  · intro running
    rw [stopped] at running
    cases running
  · simp [alone]
  · simp
  · simp [tryAdvertisingStartBegin]

/-- The step lemma. -/
theorem Serving.step (serving : Serving isWakeup s) (taken : Step s label s')
    (during : DuringCall s label) : Serving isWakeup s' := by
  cases step_effect taken with
  | startEnd sleeper timeS asleep =>
      have returned : s.starting.eraseIdx sleeper = [] := by
        have inside := (List.getElem?_eq_some_iff.mp asleep).1
        have := serving.alone
        apply List.eq_nil_of_length_eq_zero
        rw [List.length_eraseIdx_of_lt inside]
        omega
      rw [tryAdvertisingStartEnd_eq]
      refine ⟨serving.mode, serving.notSwitching, serving.onAir, ?_, ?_, ?_⟩
      · simp [returned]
      · intro _
        cases s.ble.isAdvRunning <;> simp
      · exact fun notReturned => (notReturned returned).elim
  | switchEnd asleep =>
      have normal : isWakeup = false := by
        by_contra wakeup
        have free := serving.notSwitching (by simpa using wakeup)
        rw [asleep] at free
        cases free
      rw [advModeSwitchHandlerEnd_eq]
      split
      · refine ⟨normal.symm, fun _ => rfl, serving.onAir, serving.alone,
          fun returned => ?_, serving.cancelled⟩
        cases s.ble.isAdvRunning <;> simp
      · exact ⟨normal.symm, fun _ => rfl, serving.onAir, serving.alone,
          serving.submitted, serving.cancelled⟩
  | advWork startErr queued free =>
      obtain rfl : startErr = 0 := during
      unfold advertisingProcess advertisingContinue
      split
      case isTrue running =>
        exact ⟨serving.mode, serving.notSwitching, serving.onAir, serving.alone,
          fun _ => .inl running, serving.cancelled⟩
      case isFalse silent =>
        rw [if_neg (by decide)]
        refine ⟨serving.mode, serving.notSwitching, fun _ => ⟨_, rfl, ?_⟩,
          serving.alone, fun _ => .inl rfl, serving.cancelled⟩
        exact (advParam_isWakeup _).trans serving.mode
  | timerExpires armed =>
      exact (serving.cancelled during (.inl armed)).elim
  | switchBegin stopErr queued free =>
      exact (serving.cancelled during.2 (.inr queued)).elim
  | startBegin | stop | deletePaired | callback | securityChanged | advEnds |
      linkLost | bonded => exact during.elim

theorem neverLost_of_free (alone : s.starting = [])
    (free : isWakeup = true → s.switching = false) :
    NeverLost s isWakeup timeS := by
  intro called labels last taken run returned noneQueued
  have serving : Serving isWakeup last :=
    run.invariant (Serving isWakeup)
      (fun _ _ _ before step => before.step step.1 step.2)
      (Serving.start alone free taken)
  refine serving.onAir ((serving.submitted returned).resolve_right ?_)
  rw [noneQueued]
  exact Bool.false_ne_true

/-- The sleeping handler resets the mode, and only then the start can run. -/
theorem lost_of_switching (alone : s.starting = []) (asleep : s.switching = true) :
    ¬ NeverLost s true timeS := by
  rcases s with ⟨ble, starting, switching⟩
  obtain rfl : starting = [] := alone
  obtain rfl : switching = true := asleep
  intro neverLost
  let called := tryAdvertisingStartBegin true 0 ble
  let switched := advModeSwitchHandlerEnd called
  let returned := tryAdvertisingStartEnd timeS switched
  have switchedSilent : switched.isAdvRunning = false ∧
      switched.gWakeupAdvMode = false := by
    have stopped := tryAdvertisingStartBegin_stopped true ble
    dsimp only [switched]
    rw [advModeSwitchHandlerEnd_eq]
    split <;> exact ⟨stopped, rfl⟩
  have silent : returned.isAdvRunning = false ∧
      returned.gWakeupAdvMode = false ∧ returned.advWork = true := by
    dsimp only [returned]
    rw [tryAdvertisingStartEnd_eq]
    refine ⟨switchedSilent.1, switchedSilent.2, ?_⟩
    simp [switchedSilent.1]
  have started : advertisingProcess 0 returned =
      { returned with
        advWork := false
        advertising := some returned.advParam
        isAdvRunning := true } := by
    unfold advertisingProcess advertisingContinue
    rw [if_neg (by simp [silent.1]), if_neg (by decide)]
    rfl
  have starts : Step ⟨returned, [], false⟩ (.advWork 0)
      ⟨advertisingProcess 0 returned, [], false⟩ :=
    if_pos ⟨silent.2.2, Bool.false_ne_true⟩
  have run : Path (Restrict Step DuringCall) ⟨called, [timeS], true⟩
      [.switchEnd, .startEnd 0, .advWork 0]
      ⟨advertisingProcess 0 returned, [], false⟩ :=
    .cons ⟨rfl, trivial⟩ (.cons ⟨rfl, trivial⟩
      (.cons ⟨starts, rfl⟩ (.nil _)))
  obtain ⟨adv, onAir, wakeup⟩ :=
    neverLost ⟨called, [timeS], true⟩ _ _ rfl run rfl (by rw [started])
  rw [started] at onAir
  obtain rfl : returned.advParam = adv := Option.some.inj onAir
  rw [advParam_isWakeup, silent.2.1] at wakeup
  cases wakeup

/-- A request that comes alone is never lost exactly if it asks for pairing or
no mode switch handler is asleep. -/
theorem neverLost_iff (isWakeup : Bool) (timeS : Int32)
    (alone : s.starting = []) :
    NeverLost s isWakeup timeS ↔
      ¬ (isWakeup = true ∧ s.switching = true) := by
  constructor
  · rintro neverLost ⟨rfl, asleep⟩
    exact lost_of_switching alone asleep neverLost
  · intro free
    refine neverLost_of_free alone fun wakeup => ?_
    rw [← Bool.not_eq_true]
    exact fun asleep => free ⟨wakeup, asleep⟩

end Interleaving

/-- A wakeup request that comes while another one is on air and its mode switch
waits for the work queue. -/
theorem wakeup_before_mode_switch_served : ∃ s,
    Path Step (bootedWith [])
        [.startBegin true 1 0, .startEnd 0, .advWork 0, .timerExpires] s ∧
      s.ble.isAdvRunning = true ∧ s.ble.advModeSwitchWork.queued = true ∧
      NeverLost s true 5 := by
  refine ⟨_, path_of_execute rfl, rfl, rfl, ?_⟩
  exact (neverLost_iff true 5 rfl).mpr fun asleep => Bool.false_ne_true asleep.2

/-- A wakeup request of one second, whose mode switch is asleep when the next
request comes. -/
theorem wakeup_during_mode_switch_lost : ∃ s,
    Path Step (bootedWith [])
        [.startBegin true 1 0, .startEnd 0, .advWork 0, .timerExpires,
          .switchBegin 0] s ∧
      s.starting = [] ∧ ¬ NeverLost s true 5 :=
  ⟨_, path_of_execute rfl, rfl, lost_of_switching rfl rfl⟩

end BleRc

end SzpiSta
