import SzpiSta.AutoReboot
import SzpiSta.Simulations

/-!
# What the reboot looper makes of the television

The requests of the looper as the relay and the radio see them: the television
is switched off, switched on, and woken up until it connects.  The abstract
system below allows just this order, from any earlier position of the relay, and
the looper keeps to it in every run.  From it follow the number of wake-ups, the
position in which a stop leaves the relay, and that a session repeats a cycle
only for a television that has connected.
-/

namespace SzpiSta

namespace AutoReboot

open TransitionPaths BleRc

/-- The television as the requests made so far leave it. -/
inductive PowerPhase where
  /-- Nothing has been asked of the relay. -/
  | untouched
  | off
  | on
  /-- Switched on, and woken up so many times. -/
  | woken (wakeUps : Nat)
  deriving DecidableEq

/-- The requests that may follow each other. -/
def powerStep (staNetworkEn : Bool) :
    LooperAction → PowerPhase → Option PowerPhase
  | .runSetSkV v, phase =>
      if v = 0 then some .off
      else if v = 1 ∧ phase = .off then some .on
      else none
  | .tryAdvertisingStart isWakeup timeS, phase =>
      if isWakeup = true ∧ timeS = blercWakeupTimeS staNetworkEn then
        match phase with
        | .on => some (.woken 1)
        | .woken wakeUps => some (.woken (wakeUps + 1))
        | _ => none
      else none

abbrev PowerStep (staNetworkEn : Bool) :
    PowerPhase → LooperAction → PowerPhase → Prop :=
  FunctionStep (powerStep staNetworkEn)

/-- The request a step makes. -/
def Label.action : Label → Option LooperAction
  | .looper _ action => action
  | .start | .stop => none

/-- The requests made in a run, in order. -/
def actions (labels : List Label) : List LooperAction :=
  labels.flatMap fun label => label.action.toList

/-- Where the television is when the thread is at `pc`. -/
def PhaseAt : LooperPc → PowerPhase → Prop
  | .switchOn, phase => phase = .off
  | .wakeup, phase => phase = .on
  | .sleeping _ .off, phase | .sleptTest .off, phase => phase = .off
  | .sleeping _ .on, phase | .sleptTest .on, phase => phase = .on
  | .waitConnected tryWakeupCnt, phase =>
      0 < tryWakeupCnt ∧ phase = .woken (1 + (tryWakeupCnt - 1) / 30)
  | .sleeping _ (.waiting tryWakeupCnt), phase
  | .sleptTest (.waiting tryWakeupCnt), phase =>
      phase = .woken (1 + tryWakeupCnt / 30)
  | .waitedTest, phase | .sleeping _ .connected, phase
  | .sleptTest .connected, phase => ∃ wakeUps, phase = .woken wakeUps
  | .semTake, _ | .blocked, _ | .enter, _ | .loopTest, _ | .switchOff, _ => True

section Cycle

variable {staNetworkEn : Bool} {s s' : LooperSystem} {phase : PowerPhase}

theorem powerStep_switchOff (phase : PowerPhase) :
    PowerStep staNetworkEn phase (.runSetSkV 0) .off :=
  rfl

theorem powerStep_switchOn :
    PowerStep staNetworkEn .off (.runSetSkV 1) .on :=
  rfl

theorem powerStep_wakeUp :
    PowerStep staNetworkEn .on
      (.tryAdvertisingStart true (blercWakeupTimeS staNetworkEn)) (.woken 1) :=
  if_pos ⟨rfl, rfl⟩

theorem powerStep_wakeAgain (wakeUps : Nat) :
    PowerStep staNetworkEn (.woken wakeUps)
      (.tryAdvertisingStart true (blercWakeupTimeS staNetworkEn))
      (.woken (wakeUps + 1)) :=
  if_pos ⟨rfl, rfl⟩

/-- A poll that finds no connection wakes up at every thirtieth. -/
theorem poll_follows {btrcSt : BtrcSt} {tryWakeupCnt : Nat}
    (at_poll : PhaseAt (.waitConnected tryWakeupCnt) phase)
    (unsecured : btrcSt ≠ .securityLvOk) :
    Path (PowerStep staNetworkEn) phase
      ((LooperPc.waitConnected tryWakeupCnt).action staNetworkEn btrcSt).toList
      (.woken (1 + tryWakeupCnt / 30)) := by
  obtain ⟨positive, rfl⟩ := at_poll
  by_cases thirtieth : tryWakeupCnt % 30 = 0
  · have more : 1 + (tryWakeupCnt - 1) / 30 + 1 = 1 + tryWakeupCnt / 30 := by
      omega
    rw [LooperPc.action, if_pos ⟨unsecured, thirtieth⟩, ← more]
    exact path_singleton_iff.mpr (powerStep_wakeAgain _)
  · have same : 1 + (tryWakeupCnt - 1) / 30 = 1 + tryWakeupCnt / 30 := by
      omega
    rw [LooperPc.action, if_neg fun wakes => thirtieth wakes.2, ← same]
    exact .nil _

/-- A step of a cycle makes the request that is due. -/
theorem cycleStep_follows (btrcSt : BtrcSt) (running : Bool) (pc : LooperPc)
    (before : PhaseAt pc phase) :
    ∃ after, Path (PowerStep staNetworkEn) phase
        (pc.action staNetworkEn btrcSt).toList after ∧
      PhaseAt (cycleStep btrcSt running pc) after := by
  cases pc with
  | semTake | blocked | enter => exact ⟨phase, .nil _, trivial⟩
  | loopTest =>
      refine ⟨phase, .nil _, ?_⟩
      cases running <;> trivial
  | switchOff =>
      exact ⟨.off, path_singleton_iff.mpr (powerStep_switchOff phase), rfl⟩
  | switchOn =>
      obtain rfl : phase = .off := before
      exact ⟨.on, path_singleton_iff.mpr powerStep_switchOn, rfl⟩
  | wakeup =>
      obtain rfl : phase = .on := before
      exact ⟨.woken 1, path_singleton_iff.mpr powerStep_wakeUp, by decide, rfl⟩
  | waitConnected tryWakeupCnt =>
      by_cases secured : btrcSt = .securityLvOk
      · refine ⟨phase, ?_, ?_⟩
        · rw [LooperPc.action, if_neg fun wakes => wakes.1 secured]
          exact .nil _
        · rw [cycleStep, if_neg (not_not_intro secured)]
          exact ⟨_, before.2⟩
      · refine ⟨_, poll_follows before secured, ?_⟩
        rw [cycleStep, if_pos secured]
        exact rfl
  | sleeping timeS stage =>
      refine ⟨phase, .nil _, ?_⟩
      simp only [cycleStep]
      cases stage <;> split <;> exact before
  | sleptTest stage =>
      refine ⟨phase, .nil _, ?_⟩
      cases running with
      | false =>
          cases stage with
          | waiting tryWakeupCnt => exact ⟨_, before⟩
          | off | on | connected => trivial
      | true =>
          cases stage with
          | waiting tryWakeupCnt => exact ⟨Nat.succ_pos _, before⟩
          | off | on => exact before
          | connected => trivial
  | waitedTest =>
      refine ⟨phase, .nil _, ?_⟩
      cases running with
      | false => trivial
      | true => exact before

/-- The looper is a power cycle of the television. -/
theorem looper_simulates (staNetworkEn : Bool) :
    Simulates (Step staNetworkEn) (PowerStep staNetworkEn)
      (fun label => label.action.toList)
      fun s phase => PhaseAt s.looper phase := by
  intro s label s' phase before taken
  cases label with
  | start =>
      cases taken
      refine ⟨phase, .nil _, ?_⟩
      unfold cmdAutoRebootStart
      split
      · trivial
      · split <;> exact before
  | stop =>
      cases taken
      exact ⟨phase, .nil _, before⟩
  | looper btrcSt action =>
      obtain ⟨rfl, moves⟩ := action_of_step taken
      rcases looperStep_cases moves with
        ⟨atTake, -, rfl⟩ | ⟨atTake, -, rfl⟩ | ⟨entering, rfl⟩ | ⟨-, -, -, rfl⟩
      · rw [atTake]
        exact ⟨phase, .nil _, trivial⟩
      · rw [atTake]
        exact ⟨phase, .nil _, trivial⟩
      · rw [entering]
        exact ⟨phase, .nil _, trivial⟩
      · exact cycleStep_follows btrcSt s.gBtCkRunning s.looper before

theorem phaseAt_booted : PhaseAt booted.looper .untouched := trivial

end Cycle

/-- In every run the requests follow the order of a power cycle, and leave the
television where the thread takes it to be: it is switched on only after it was
switched off, and woken up only while it is on. -/
theorem requests_follow_power_cycle {staNetworkEn : Bool} {labels : List Label}
    {s : LooperSystem} (run : Path (Step staNetworkEn) booted labels s) :
    ∃ phase, Path (PowerStep staNetworkEn) .untouched (actions labels) phase ∧
      PhaseAt s.looper phase :=
  (looper_simulates staNetworkEn).path run phaseAt_booted

/-- A step of the thread without a request, and several. -/
def quiet (count : Nat) : List Label :=
  List.replicate count (.looper .disconnecte none)

/-- From a start to the check of the off phase. -/
def toOffCheck : List Label :=
  .start :: quiet 3 ++ .looper .disconnecte (some (.runSetSkV 0)) :: quiet 6

/-- From there to the first poll. -/
def toFirstPoll : List Label :=
  quiet 1 ++ .looper .disconnecte (some (.runSetSkV 1)) :: quiet 7 ++
    [.looper .disconnecte (some (.tryAdvertisingStart true 10))]

def firstPoll : LooperSystem := ⟨0, true, .waitConnected 1⟩

theorem first_poll_follows_power_cycle :
    Path (Step true) booted (toOffCheck ++ toFirstPoll) firstPoll ∧
      ∃ phase, Path (PowerStep true) .untouched
          (actions (toOffCheck ++ toFirstPoll)) phase ∧
        PhaseAt firstPoll.looper phase := by
  have run : Path (Step true) booted (toOffCheck ++ toFirstPoll) firstPoll :=
    path_of_execute rfl
  exact ⟨run, requests_follow_power_cycle run⟩

section Requests

variable {staNetworkEn : Bool}

/-- The wake-up request of the looper. -/
def wakeUp (staNetworkEn : Bool) : LooperAction :=
  .tryAdvertisingStart true (blercWakeupTimeS staNetworkEn)

/-- How the requests end that leave the television in a phase. -/
def EndsIn (staNetworkEn : Bool) (requests : List LooperAction) :
    PowerPhase → Prop
  | .untouched => requests = []
  | .off => ∃ earlier, requests = earlier ++ [.runSetSkV 0]
  | .on => ∃ earlier, requests = earlier ++ [.runSetSkV 0, .runSetSkV 1]
  | .woken wakeUps => ∃ earlier, requests =
      earlier ++ [.runSetSkV 0, .runSetSkV 1] ++
        List.replicate wakeUps (wakeUp staNetworkEn)

theorem EndsIn.step {requests : List LooperAction} {request : LooperAction}
    {phase after : PowerPhase} (ends : EndsIn staNetworkEn requests phase)
    (taken : PowerStep staNetworkEn phase request after) :
    EndsIn staNetworkEn (requests ++ [request]) after := by
  have taken : powerStep staNetworkEn request phase = some after := taken
  cases request with
  | runSetSkV v =>
      simp only [powerStep] at taken
      split at taken
      · rename_i isOff
        cases taken
        subst isOff
        exact ⟨requests, rfl⟩
      · obtain ⟨⟨rfl, rfl⟩, ⟨⟩⟩ := Option.ite_none_right_eq_some.mp taken
        obtain ⟨earlier, rfl⟩ := ends
        exact ⟨earlier, by simp⟩
  | tryAdvertisingStart isWakeup timeS =>
      obtain ⟨⟨rfl, rfl⟩, moves⟩ := Option.ite_none_right_eq_some.mp taken
      cases phase with
      | untouched | off => cases moves
      | on =>
          cases moves
          obtain ⟨earlier, rfl⟩ := ends
          exact ⟨earlier, rfl⟩
      | woken wakeUps =>
          cases moves
          obtain ⟨earlier, rfl⟩ := ends
          refine ⟨earlier, ?_⟩
          rw [List.replicate_succ', ← List.append_assoc]
          rfl

theorem endsIn_of_path {requests : List LooperAction} {phase : PowerPhase}
    (path : Path (PowerStep staNetworkEn) .untouched requests phase) :
    EndsIn staNetworkEn requests phase :=
  path.historyInvariant (EndsIn staNetworkEn)
    (fun _ _ _ _ ends taken => ends.step taken) rfl

end Requests

/-- While the looper waits for the connection, at its poll with the number
`tryWakeupCnt`, it has switched the television off and on and has woken it up
once, and once more for every 30 polls so far. -/
theorem wake_ups_of_waiting {staNetworkEn : Bool} {labels : List Label}
    {s : LooperSystem} {tryWakeupCnt : Nat}
    (run : Path (Step staNetworkEn) booted labels s)
    (waits : s.looper = .waitConnected tryWakeupCnt) :
    ∃ earlier, actions labels =
      earlier ++ [.runSetSkV 0, .runSetSkV 1] ++
        List.replicate (1 + (tryWakeupCnt - 1) / 30) (wakeUp staNetworkEn) := by
  obtain ⟨phase, requests, atPhase⟩ :=
    (looper_simulates staNetworkEn).path run phaseAt_booted
  rw [waits] at atPhase
  obtain ⟨-, rfl⟩ := atPhase
  exact endsIn_of_path requests

/-- From the first poll on, so many of them that find no connection. -/
def failedPolls : Nat → List Label
  | 0 => []
  | polls + 1 =>
      failedPolls polls ++ .looper .disconnecte
        ((LooperPc.waitConnected (polls + 1)).action true .disconnecte) :: quiet 3

theorem failedPolls_run (polls : Nat) :
    Path (Step true) firstPoll (failedPolls polls)
      ⟨0, true, .waitConnected (polls + 1)⟩ := by
  induction polls with
  | zero => exact .nil _
  | succ polls ih =>
      have head : Step true ⟨0, true, .waitConnected (polls + 1)⟩
          (.looper .disconnecte
            ((LooperPc.waitConnected (polls + 1)).action true .disconnecte))
          ⟨0, true, .sleeping 1 (.waiting (polls + 1))⟩ := if_pos rfl
      have tail : Path (Step true) ⟨0, true, .sleeping 1 (.waiting (polls + 1))⟩
          (quiet 3) ⟨0, true, .waitConnected (polls + 1 + 1)⟩ :=
        path_of_execute rfl
      exact ih.append (.cons head tail)

/-- A television that does not connect for a minute. -/
def minuteOfPolls : List Label := toOffCheck ++ toFirstPoll ++ failedPolls 60

theorem poll_61_after_three_wake_ups :
    Path (Step true) booted minuteOfPolls ⟨0, true, .waitConnected 61⟩ ∧
      ∃ earlier, actions minuteOfPolls =
        earlier ++ [.runSetSkV 0, .runSetSkV 1] ++
          List.replicate (1 + (61 - 1) / 30) (wakeUp true) := by
  have begins : Path (Step true) booted (toOffCheck ++ toFirstPoll) firstPoll :=
    path_of_execute rfl
  have run := begins.append (failedPolls_run 60)
  exact ⟨run, wake_ups_of_waiting run rfl⟩

section Stopping

variable {staNetworkEn : Bool} {s s' t : LooperSystem} {label : Label}
variable {labels : List Label}

/-- The last request to the relay, after one that was `relay`. -/
def relayAfter (relay : Option UInt8) : List LooperAction → Option UInt8
  | [] => relay
  | .runSetSkV v :: requests => relayAfter (some v) requests
  | .tryAdvertisingStart _ _ :: requests => relayAfter relay requests

theorem relayAfter_append (relay : Option UInt8)
    (first second : List LooperAction) :
    relayAfter relay (first ++ second) =
      relayAfter (relayAfter relay first) second := by
  induction first generalizing relay with
  | nil => rfl
  | cons request first ih =>
      cases request with
      | runSetSkV v => exact ih (some v)
      | tryAdvertisingStart isWakeup timeS => exact ih relay

def PowerPhase.relay : PowerPhase → Option UInt8
  | .untouched => none
  | .off => some 0
  | .on | .woken _ => some 1

theorem powerStep_relay {request : LooperAction} {phase after : PowerPhase}
    (taken : PowerStep staNetworkEn phase request after) :
    relayAfter phase.relay [request] = after.relay := by
  have taken : powerStep staNetworkEn request phase = some after := taken
  cases request with
  | runSetSkV v =>
      simp only [powerStep] at taken
      split at taken
      · rename_i isOff
        cases taken
        subst isOff
        rfl
      · obtain ⟨⟨rfl, rfl⟩, ⟨⟩⟩ := Option.ite_none_right_eq_some.mp taken
        rfl
  | tryAdvertisingStart isWakeup timeS =>
      obtain ⟨-, moves⟩ := Option.ite_none_right_eq_some.mp taken
      cases phase with
      | untouched | off => cases moves
      | on | woken => cases moves; rfl

theorem relay_of_path {requests : List LooperAction} {phase after : PowerPhase}
    (path : Path (PowerStep staNetworkEn) phase requests after) :
    relayAfter phase.relay requests = after.relay := by
  induction path with
  | nil => rfl
  | cons head _ ih =>
      rw [← List.singleton_append, relayAfter_append, powerStep_relay head]
      exact ih

/-- The position of the relay once the thread at `pc` has come to rest with the
flag cleared.  A request that is due is still made. -/
def settles : LooperPc → Option UInt8 → Option UInt8
  | .switchOff, _ => some 0
  | .switchOn, _ => some 1
  | _, relay => relay

/-- The steps the thread takes until it rests. -/
def stepsToRest : LooperPc → Nat
  | .blocked => 0
  | .semTake => 1
  | .enter => 0
  | .loopTest | .waitedTest => 2
  | .sleptTest (.waiting _) => 3
  | .sleptTest _ => 2
  | .sleeping _ (.waiting _) => 4
  | .sleeping _ _ => 3
  | .switchOff | .switchOn => 4
  | .waitConnected _ => 5
  | .wakeup => 6

theorem stepsToRest_le (pc : LooperPc) : stepsToRest pc ≤ 6 := by
  cases pc with
  | sleptTest stage | sleeping _ stage => cases stage <;> simp [stepsToRest]
  | _ => simp [stepsToRest]

/-- With the flag cleared a step of a cycle leads nearer to the end, and leaves
the relay where it was going. -/
theorem cycleStep_settles (staNetworkEn : Bool) (btrcSt : BtrcSt) (relay : Option UInt8)
    {pc : LooperPc} (inside : pc ≠ .semTake ∧ pc ≠ .blocked ∧ pc ≠ .enter) :
    stepsToRest (cycleStep btrcSt false pc) < stepsToRest pc ∧
      settles (cycleStep btrcSt false pc)
          (relayAfter relay (pc.action staNetworkEn btrcSt).toList) =
        settles pc relay := by
  cases pc with
  | semTake => exact (inside.1 rfl).elim
  | blocked => exact (inside.2.1 rfl).elim
  | enter => exact (inside.2.2 rfl).elim
  | loopTest | switchOff | switchOn | wakeup | waitedTest =>
      exact ⟨Nat.lt_succ_self _, rfl⟩
  | sleptTest stage => cases stage <;> exact ⟨Nat.lt_succ_self _, rfl⟩
  | sleeping timeS stage =>
      have wakes : cycleStep btrcSt false (.sleeping timeS stage) =
          .sleptTest stage := by
        simp [cycleStep]
      rw [wakes]
      cases stage <;> exact ⟨Nat.lt_succ_self _, rfl⟩
  | waitConnected tryWakeupCnt =>
      simp only [cycleStep, LooperPc.action]
      split
      · refine ⟨Nat.lt_succ_self _, ?_⟩
        split <;> rfl
      · rename_i secured
        rw [if_neg fun wakes => secured wakes.1]
        exact ⟨by simp [stepsToRest], rfl⟩

/-- A step of the thread, of which `steps` counts those since the stop. -/
def Label.steps : Label → Nat
  | .looper _ _ => 1
  | .start | .stop => 0

def steps : List Label → Nat
  | [] => 0
  | label :: labels => label.steps + steps labels

/-- What a stop that lasts has decided: where the relay ends, and how many steps
the thread has left. -/
structure Settling (relay : Option UInt8) (left : Nat)
    (labels : List Label) (s : LooperSystem) : Prop where
  nothing : NothingRemembered s
  cleared : s.gBtCkRunning = false
  relay : settles s.looper (relayAfter none (actions labels)) = relay
  left : steps labels + stepsToRest s.looper ≤ left

theorem actions_append (first second : List Label) :
    actions (first ++ second) = actions first ++ actions second :=
  List.flatMap_append

theorem steps_append (first second : List Label) :
    steps (first ++ second) = steps first + steps second := by
  induction first with
  | nil => exact (Nat.zero_add _).symm
  | cons label first ih =>
      rw [List.cons_append, steps, ih, steps, Nat.add_assoc]

/-- A step of the thread after a stop that lasts. -/
theorem looper_settles {btrcSt : BtrcSt} {action : Option LooperAction}
    (nothing : NothingRemembered s) (cleared : s.gBtCkRunning = false)
    (taken : Step staNetworkEn s (.looper btrcSt action) s')
    (relay : Option UInt8) :
    stepsToRest s'.looper + 1 ≤ stepsToRest s.looper ∧
      settles s'.looper (relayAfter relay action.toList) =
        settles s.looper relay := by
  obtain ⟨rfl, moves⟩ := action_of_step taken
  rcases looperStep_cases moves with
    ⟨-, given, -⟩ | ⟨atTake, -, rfl⟩ | ⟨entering, -⟩ |
      ⟨notTake, notBlocked, notEnter, rfl⟩
  · rw [nothing.btCkRunSem] at given
    cases given
  · rw [atTake]
    exact ⟨Nat.le_refl _, rfl⟩
  · exact (nothing.notEntering entering).elim
  · rw [cleared]
    exact cycleStep_settles staNetworkEn btrcSt relay
      ⟨notTake, notBlocked, notEnter⟩

theorem Settling.step {relay : Option UInt8} {left : Nat}
    (settling : Settling relay left labels s)
    (taken : Step staNetworkEn s label s') (notStart : label ≠ .start) :
    Settling relay left (labels ++ [label]) s' := by
  obtain ⟨nothing, cleared⟩ :=
    settling.nothing.step settling.cleared taken notStart
  have requests : actions (labels ++ [label]) =
      actions labels ++ label.action.toList := by
    rw [actions_append]
    exact congrArg _ (List.append_nil _)
  have counted : steps (labels ++ [label]) = steps labels + label.steps := by
    rw [steps_append]
    rfl
  have settled : stepsToRest s'.looper + label.steps ≤ stepsToRest s.looper ∧
      settles s'.looper
          (relayAfter (relayAfter none (actions labels)) label.action.toList) =
        settles s.looper (relayAfter none (actions labels)) := by
    cases label with
    | start => exact (notStart rfl).elim
    | stop =>
        cases taken
        exact ⟨Nat.le_refl _, rfl⟩
    | looper btrcSt action =>
        exact looper_settles settling.nothing settling.cleared taken _
  refine ⟨nothing, cleared, ?_, ?_⟩
  · rw [requests, relayAfter_append, settled.2]
    exact settling.relay
  · rw [counted]
    have bound := settling.left
    have nearer := settled.1
    omega

/-- A stop that meets the thread at `pc`, where the last request to the relay was
`relay`, leaves the television switched off. -/
def LeavesOff (relay : Option UInt8) : LooperPc → Prop
  | .switchOff | .sleeping _ .off | .sleptTest .off => True
  | .semTake | .blocked | .enter | .loopTest => relay = some 0
  | _ => False

/-- The request that is due, and else the last one, decides. -/
theorem settles_eq_off_iff {pc : LooperPc} {phase : PowerPhase}
    (atPhase : PhaseAt pc phase) :
    settles pc phase.relay = some 0 ↔ LeavesOff phase.relay pc := by
  cases pc with
  | semTake | blocked | enter | loopTest => exact Iff.rfl
  | switchOff => exact iff_of_true rfl trivial
  | switchOn => exact iff_of_false (by decide : some (1 : UInt8) ≠ some 0) id
  | wakeup =>
      obtain rfl : phase = .on := atPhase
      exact iff_of_false (by decide : some (1 : UInt8) ≠ some 0) id
  | waitConnected tryWakeupCnt =>
      obtain ⟨-, rfl⟩ := atPhase
      exact iff_of_false (by decide : some (1 : UInt8) ≠ some 0) id
  | waitedTest =>
      obtain ⟨wakeUps, rfl⟩ := atPhase
      exact iff_of_false (by decide : some (1 : UInt8) ≠ some 0) id
  | sleeping _ stage | sleptTest stage =>
      cases stage with
      | off =>
          obtain rfl : phase = .off := atPhase
          exact iff_of_true rfl trivial
      | on =>
          obtain rfl : phase = .on := atPhase
          exact iff_of_false (by decide : some (1 : UInt8) ≠ some 0) id
      | waiting tryWakeupCnt =>
          obtain rfl : phase = .woken _ := atPhase
          exact iff_of_false (by decide : some (1 : UInt8) ≠ some 0) id
      | connected =>
          obtain ⟨wakeUps, rfl⟩ := atPhase
          exact iff_of_false (by decide : some (1 : UInt8) ≠ some 0) id

/-- A thread that is not asleep on its semaphore can go on. -/
theorem looperStep_of_awake (btrcSt : BtrcSt) (awake : s.looper ≠ .blocked) :
    ∃ after, looperStep btrcSt s = some after := by
  rcases s with ⟨sem, running, pc⟩
  cases pc with
  | blocked => exact (awake rfl).elim
  | semTake =>
      unfold looperStep
      dsimp only
      split
      · exact ⟨_, rfl⟩
      · exact ⟨_, rfl⟩
  | _ => exact ⟨_, rfl⟩

theorem settling_of_stop (stops : Step staNetworkEn s .stop s')
    (nothing : NothingRemembered s) :
    Settling (settles s.looper (relayAfter none (actions labels)))
      (steps labels + stepsToRest s.looper) (labels ++ [.stop]) s' := by
  obtain rfl : cmdAutoRebootStop s = s' := Option.some.inj stops
  refine ⟨⟨nothing.btCkRunSem, nothing.notEntering⟩, rfl, ?_, ?_⟩
  · rw [actions_append]
    exact congrArg (fun requests => settles s.looper (relayAfter none requests))
      (List.append_nil _)
  · rw [steps_append]
    exact Nat.le_refl _

end Stopping

/-- A stop that takes back every start: the thread rests after six steps at most
and never waits for anything else, and then the television is switched off
exactly if the stop came between the decision to switch it off and the decision
to switch it on, or found the looper idle and the television switched off. -/
theorem stop_leaves_relay_off_iff {staNetworkEn : Bool}
    {labels later : List Label} {s s' t : LooperSystem}
    (run : Path (Step staNetworkEn) booted labels s)
    (stops : Step staNetworkEn s .stop s') (nothing : NothingRemembered s)
    (rest : Path (Restrict (Step staNetworkEn) NotStarted) s' later t) :
    steps later ≤ 6 ∧
      (t.looper ≠ .blocked → ∀ btrcSt, ∃ after,
        looperStep btrcSt t = some after) ∧
      (t.looper = .blocked →
        (relayAfter none (actions (labels ++ .stop :: later)) = some 0 ↔
          LeavesOff (relayAfter none (actions labels)) s.looper)) := by
  obtain ⟨phase, requests, atPhase⟩ :=
    (looper_simulates staNetworkEn).path run phaseAt_booted
  have relay : relayAfter none (actions labels) = phase.relay :=
    relay_of_path requests
  have settled := rest.historyInvariant
    (Settling (settles s.looper (relayAfter none (actions labels)))
      (steps labels + stepsToRest s.looper))
    (fun _ _ _ _ settling taken => settling.step taken.1 taken.2)
    (settling_of_stop stops nothing)
  rw [List.append_assoc, List.singleton_append] at settled
  refine ⟨?_, fun awake btrcSt => looperStep_of_awake btrcSt awake, ?_⟩
  · have bound := settled.left
    have short := stepsToRest_le s.looper
    have counted : steps (labels ++ .stop :: later) =
        steps labels + steps later := by
      rw [steps_append]
      simp [steps, Label.steps]
    omega
  · intro rests
    have ended := settled.relay
    rw [rests] at ended
    rw [show relayAfter none (actions (labels ++ .stop :: later)) = _ from ended,
      relay]
    exact settles_eq_off_iff atPhase

/-- A stop in the off phase. -/
theorem stop_in_off_phase_leaves_off :
    relayAfter none (actions (toOffCheck ++ .stop :: quiet 2)) = some 0 := by
  have run : Path (Step true) booted toOffCheck ⟨0, true, .sleptTest .off⟩ :=
    path_of_execute rfl
  have stops : Step true ⟨0, true, .sleptTest .off⟩ .stop
      ⟨0, false, .sleptTest .off⟩ := rfl
  have rest : Path (Restrict (Step true) NotStarted)
      ⟨0, false, .sleptTest .off⟩ (quiet 2) ⟨0, false, .blocked⟩ :=
    (path_of_execute rfl).restrict _ (by simp [quiet, NotStarted])
  exact ((stop_leaves_relay_off_iff run stops ⟨rfl, nofun⟩ rest).2.2 rfl).mpr
    trivial

section Repeating

variable {staNetworkEn : Bool} {s s' : LooperSystem} {label : Label}
variable {labels : List Label}

/-- The thread does not begin anew after a start. -/
def NotEntering (s : LooperSystem) (_ : Label) : Prop := s.looper ≠ .enter

/-- A poll found the connection secured. -/
def FoundSecured (labels : List Label) : Prop :=
  ∃ action, .looper .securityLvOk action ∈ labels

/-- The places that a cycle with the flag set comes to once it has found the
connection. -/
def LooperPc.Late : LooperPc → Prop
  | .waitedTest | .sleeping _ .connected | .sleptTest .connected
  | .loopTest => True
  | _ => False

/-- What is late in the cycle has found the connection. -/
def LateFound (labels : List Label) (s : LooperSystem) : Prop :=
  s.gBtCkRunning = true → s.looper.Late → FoundSecured labels

theorem FoundSecured.mono (found : FoundSecured labels) (label : Label) :
    FoundSecured (labels ++ [label]) := by
  obtain ⟨action, member⟩ := found
  exact ⟨action, List.mem_append_left _ member⟩

/-- With the flag set, only a poll that finds the connection leads on to what is
late. -/
theorem late_of_cycleStep {btrcSt : BtrcSt} {pc : LooperPc}
    (late : (cycleStep btrcSt true pc).Late) :
    pc.Late ∨ btrcSt = .securityLvOk := by
  cases pc with
  | waitConnected tryWakeupCnt =>
      simp only [cycleStep] at late
      split at late
      · exact late.elim
      · rename_i secured
        exact .inr (not_not.mp secured)
  | sleeping timeS stage =>
      simp only [cycleStep] at late
      split at late
      · cases stage <;> first | exact late.elim | exact .inl trivial
      · cases stage <;> first | exact late.elim | exact .inl trivial
  | sleptTest stage =>
      cases stage with
      | connected => exact .inl trivial
      | off | on | waiting => exact late.elim
  | loopTest | waitedTest => exact .inl trivial
  | semTake | blocked | enter | switchOff | switchOn | wakeup =>
      exact late.elim

theorem LateFound.step (found : LateFound labels s)
    (taken : Step staNetworkEn s label s') (inside : s.looper ≠ .enter) :
    LateFound (labels ++ [label]) s' := by
  intro running late
  cases label with
  | start =>
      cases taken
      unfold cmdAutoRebootStart at running late
      split at running
      · rename_i asleep
        rw [if_pos asleep] at late
        exact late.elim
      · rename_i awake
        rw [if_neg awake] at late
        split at running
        · rename_i room
          rw [if_pos room] at late
          exact (found running late).mono _
        · rename_i full
          rw [if_neg full] at late
          exact (found running late).mono _
  | stop =>
      cases taken
      cases running
  | looper btrcSt action =>
      obtain ⟨rfl, moves⟩ := action_of_step taken
      rcases looperStep_cases moves with
        ⟨-, -, rfl⟩ | ⟨-, -, rfl⟩ | ⟨entering, -⟩ | ⟨-, -, -, rfl⟩
      · exact late.elim
      · exact late.elim
      · exact (inside entering).elim
      · have running : s.gBtCkRunning = true := running
        have late : (cycleStep btrcSt s.gBtCkRunning s.looper).Late := late
        rw [running] at late
        rcases late_of_cycleStep late with before | rfl
        · exact (found running before).mono _
        · exact ⟨_, List.mem_append_right _ List.mem_cons_self⟩

/-- What was found in a session that has come so far after its begin. -/
theorem foundSecured_of_session {later : List Label} {t : LooperSystem}
    (begun : s.looper = .switchOff)
    (session : Path (Restrict (Step staNetworkEn) NotEntering) s later t)
    (running : t.gBtCkRunning = true) (late : t.looper.Late) :
    FoundSecured later := by
  have start : LateFound [] s := fun _ late => by
    rw [begun] at late
    exact late.elim
  have found := session.historyInvariant LateFound
    (fun _ _ _ _ found taken => found.step taken.1 taken.2) start
  rw [List.nil_append] at found
  exact found running late

end Repeating

/-- From one cycle to the next of a session, which is to say with the semaphore
not taken in between, a poll has found the connection secured: a television that
does not connect again is not switched off again in the session.  A start that
the semaphore remembers begins another session, whatever the television does. -/
theorem cycle_repeats_after_connection {staNetworkEn : Bool}
    {later : List Label} {s t t' : LooperSystem} {label : Label}
    (begun : s.looper = .switchOff)
    (session : Path (Restrict (Step staNetworkEn) NotEntering) s later t)
    (again : Step staNetworkEn t label t') (begins : BeginsCycle t label t') :
    FoundSecured later := by
  apply foundSecured_of_session begun session
  · exact running_of_beginsCycle again begins
  · rw [begins.1]
    trivial

instance : ∀ state label, Decidable (NotEntering state label) :=
  fun state _ => inferInstanceAs (Decidable (state.looper ≠ .enter))

/-- A whole cycle, with the connection found at the first poll. -/
def wholeCycle : List Label :=
  .looper .disconnecte (some (.runSetSkV 0)) :: quiet 6 ++ toFirstPoll ++
    .looper .securityLvOk none :: quiet 33

theorem second_cycle_after_connection : FoundSecured wholeCycle := by
  have session : Path (Restrict (Step true) NotEntering)
      ⟨0, true, .switchOff⟩ wholeCycle ⟨0, true, .loopTest⟩ :=
    path_restrict_of_execute rfl
  have again : Step true ⟨0, true, .loopTest⟩ (.looper .disconnecte none)
      ⟨0, true, .switchOff⟩ := rfl
  exact cycle_repeats_after_connection rfl session again ⟨rfl, rfl⟩

end AutoReboot

end SzpiSta
