import Mathlib.Data.List.Find
import SzpiSta.AutoReboot
import SzpiSta.ExternalCalls

/-!
# Sleeping by the second

`bt_ck_k_sleep` sleeps before it looks at the seconds that are left, and it looks
at them once more than it counts them down.  So it sleeps one second longer than
it is asked to, unless the flag is cleared in time, and every phase of the reboot
looper lasts one second longer with it.  The flag is a stream: what it holds after
each sleep.
-/

namespace SzpiSta

namespace AutoReboot

open ExternalCalls ExternalCalls.Program TransitionPaths BleRc

namespace BtCkSleep

inductive Call where
  | kSleep (ms : Nat)
  | printk (timeS : Int32)
  | gBtCkRunning

@[reducible]
def Call.Answer : Call → Type
  | .kSleep _ => Unit
  | .printk _ => Unit
  | .gBtCkRunning => Bool

abbrev SleepProgram := Program Call Call.Answer

abbrev ask (call : Call) : SleepProgram call.Answer := request call

/-- One turn of the loop.  The flag is read only if `time_s` was not zero. -/
def sleepTurn (timeS : Int32) : SleepProgram (LoopStep Int32 Unit) := do
  ask (.kSleep 1000)
  ask (.printk timeS)
  if timeS = 0 then
    return .leave ()
  let running ← ask .gBtCkRunning
  if running then
    return .again (timeS - 1)
  return .leave ()

def btCkKSleep (fuel : Nat) (timeS : Int32) : SleepProgram Unit :=
  loop sleepTurn fuel timeS

/-- The world counts the sleeps, and `running` is the flag after each. -/
def environment (running : Nat → Bool) : Environment Call.Answer Nat where
  answers before call answer after :=
    match call with
    | .kSleep _ => after = before + 1
    | .printk _ => after = before
    | .gBtCkRunning => answer = running before ∧ after = before

/-- The first of `count` sleeps from `first` on after which the flag is
cleared. -/
def firstCleared (running : Nat → Bool) (first count : Nat) : Option Nat :=
  (List.range' first count).find? fun sleep => !running sleep

/-- The sleeps that are asked for. -/
def sleepsAsked (seconds : Nat) (running : Nat → Bool) : Nat :=
  (firstCleared running 1 seconds).getD seconds

/-- The flag is cleared before the time is up. -/
def StoppedWithin (seconds : Nat) (running : Nat → Bool) : Prop :=
  ∃ sleep, 1 ≤ sleep ∧ sleep ≤ seconds ∧ running sleep = false

/-- `bt_ck_k_sleep` returns after `count` sleeps. -/
def Sleeps (timeS : Int32) (running : Nat → Bool) (count : Nat) : Prop :=
  (∃ fuel, Completes (environment running) (btCkKSleep fuel timeS) 0) ∧
    ∀ fuel, Ensures (environment running) (btCkKSleep fuel timeS) 0
      fun _ _ slept => slept = count

section Counting

variable {running : Nat → Bool} {first count seconds : Nat}

theorem firstCleared_succ :
    firstCleared running first (count + 1) =
      if running first then firstCleared running (first + 1) count
      else some first := by
  unfold firstCleared
  rw [List.range'_succ, List.find?_cons]
  cases running first <;> rfl

theorem firstCleared_eq_none_iff :
    firstCleared running 1 seconds = none ↔ ¬ StoppedWithin seconds running := by
  unfold firstCleared StoppedWithin
  rw [List.find?_eq_none]
  simp only [List.mem_range'_1, Bool.not_eq_true', Bool.not_eq_false]
  constructor
  · rintro never ⟨sleep, positive, atMost, cleared⟩
    have := never sleep ⟨positive, by omega⟩
    simp [cleared] at this
  · intro never sleep inside
    by_contra cleared
    exact never ⟨sleep, inside.1, by omega, by simpa using cleared⟩

/-- One sleep more is one too many, unless there was a stop. -/
theorem one_more_eq_asked_iff :
    (firstCleared running 1 seconds).getD (seconds + 1) =
        sleepsAsked seconds running ↔
      StoppedWithin seconds running := by
  unfold sleepsAsked
  cases found : firstCleared running 1 seconds with
  | none =>
      have never := firstCleared_eq_none_iff.mp found
      simp [never]
  | some sleep =>
      have stopped : StoppedWithin seconds running := by
        by_contra never
        rw [firstCleared_eq_none_iff.mpr never] at found
        cases found
      simp [stopped]

end Counting

section Loop

variable {running : Nat → Bool} {timeS : Int32} {slept : Nat}

theorem toNat_sub_one (nonneg : 0 ≤ timeS.toInt) (nonzero : timeS ≠ 0) :
    0 ≤ (timeS - 1).toInt ∧
      (timeS - 1).toInt.toNat + 1 = timeS.toInt.toNat := by
  have positive : timeS.toInt ≠ 0 := by
    intro zero
    exact nonzero (Int32.toInt_inj.mp (zero.trans Int32.toInt_zero.symm))
  have below := timeS.toInt_lt
  have less : (timeS - 1).toInt = timeS.toInt - 1 := by
    rw [Int32.toInt_sub]
    change (timeS.toInt - 1).bmod (2 ^ 32) = _
    apply Int.bmod_eq_of_le_mul_two <;> omega
  rw [less]
  omega

/-- The step lemma: a turn sleeps once, and goes round if time is left and the
flag is set. -/
theorem sleepTurn_ensures :
    Ensures (environment running) (sleepTurn timeS) slept
      fun _ step after => after = slept + 1 ∧
        step = if timeS ≠ 0 ∧ running (slept + 1) then .again (timeS - 1)
          else .leave () := by
  unfold sleepTurn
  simp only [ensures_bind, ensures_request]
  rintro _ _ rfl _ _ rfl
  split
  case isTrue zero => simp [zero]
  case isFalse nonzero =>
    simp only [ensures_bind, ensures_request]
    rintro _ _ ⟨rfl, rfl⟩
    split
    · rename_i set
      simp [nonzero, set]
    · rename_i cleared
      simp [cleared]

theorem sleepTurn_completes :
    Completes (environment running) (sleepTurn timeS) slept := by
  unfold sleepTurn
  apply completes_request_bind
  intro _ _ _
  apply completes_request_bind
  intro _ _ _
  split
  · exact completes_pure
  apply completes_request_bind
  intro _ _ _
  split <;> exact completes_pure

/-- The run lemma: the sleeps in all, from the stream alone. -/
theorem btCkKSleep_ensures (nonneg : 0 ≤ timeS.toInt) (fuel : Nat) :
    Ensures (environment running) (btCkKSleep fuel timeS) 0
      fun _ _ after => after =
        (firstCleared running 1 timeS.toInt.toNat).getD
          (timeS.toInt.toNat + 1) := by
  -- What is still to come decides the same number in every turn.
  refine ensures_loop (fun (left : Int32) _ slept => 0 ≤ left.toInt ∧
    (firstCleared running (slept + 1) left.toInt.toNat).getD
        (slept + left.toInt.toNat + 1) =
      (firstCleared running 1 timeS.toInt.toNat).getD (timeS.toInt.toNat + 1))
    ?_ fuel ?_
  · rintro left trace slept ⟨nonneg, same⟩
    refine sleepTurn_ensures.mono ?_
    rintro more turn after ⟨rfl, rfl⟩
    rw [← same]
    split
    case isTrue goesOn =>
      obtain ⟨nonneg', less⟩ := toNat_sub_one nonneg goesOn.1
      refine ⟨nonneg', ?_⟩
      rw [← less, firstCleared_succ, if_pos goesOn.2]
      congr 1
      omega
    case isFalse leaves =>
      rw [LoopStep.meets_leave]
      by_cases zero : left = 0
      · subst zero
        rfl
      · have cleared : ¬ running (slept + 1) = true :=
          fun set => leaves ⟨zero, set⟩
        rw [← (toNat_sub_one nonneg zero).2, firstCleared_succ, if_neg cleared]
        rfl
  · exact ⟨nonneg, by simp only [Nat.zero_add]⟩

theorem btCkKSleep_completes (nonneg : 0 ≤ timeS.toInt) :
    Completes (environment running) (btCkKSleep (timeS.toInt.toNat + 1) timeS)
      0 := by
  apply completes_loop (fun left _ => 0 ≤ left.toInt)
    (fun left _ => left.toInt.toNat)
  · exact fun _ _ _ => sleepTurn_completes
  · intro left slept nonneg
    refine sleepTurn_ensures.mono ?_
    rintro _ _ _ ⟨rfl, rfl⟩ next goesOn
    split at goesOn
    case isTrue goes =>
      cases goesOn
      obtain ⟨nonneg', less⟩ := toNat_sub_one nonneg goes.1
      exact ⟨nonneg', by omega⟩
    case isFalse => cases goesOn
  · exact nonneg
  · exact Nat.lt_succ_self _

/-- Every call gets an answer. -/
theorem answered (slept : Nat) (call : Call) :
    ∃ answer after, (environment running).answers slept call answer after := by
  cases call with
  | kSleep ms => exact ⟨(), _, rfl⟩
  | printk timeS => exact ⟨(), _, rfl⟩
  | gBtCkRunning => exact ⟨_, _, rfl, rfl⟩

theorem sleeps_iff (nonneg : 0 ≤ timeS.toInt) (count : Nat) :
    Sleeps timeS running count ↔
      (firstCleared running 1 timeS.toInt.toNat).getD
        (timeS.toInt.toNat + 1) = count := by
  constructor
  · rintro ⟨-, always⟩
    have completes : Completes (environment running) _ 0 :=
      btCkKSleep_completes nonneg
    obtain ⟨trace, value, after, runs⟩ := completes.exists_runs answered
    rw [← always _ _ _ _ runs, btCkKSleep_ensures nonneg _ _ _ _ runs]
  · rintro rfl
    exact ⟨⟨_, btCkKSleep_completes nonneg⟩, btCkKSleep_ensures nonneg⟩

end Loop

/-- The seconds written at the call site of each stage. -/
def seconds : Stage → Nat
  | .off => 5
  | .on => 5
  | .waiting _ => 1
  | .connected => 30

def Asleep (stage : Stage) (s : LooperSystem) (_ : AutoReboot.Label) : Prop :=
  ∃ timeS, s.looper = .sleeping timeS stage

/-- What the flag holds at the end of each sleep of a phase.  A command can clear
it during a sleep. -/
def flags : Bool → List AutoReboot.Label → List Bool
  | _, [] => []
  | flag, .start :: labels => flags flag labels
  | _, .stop :: labels => flags false labels
  | flag, .looper _ _ :: labels => flag :: flags flag labels

/-- The flag as a stream that is set once the phase is over. -/
def streamOf (flags : List Bool) (sleep : Nat) : Bool :=
  flags.getD (sleep - 1) true

/-- A phase of a cycle: the thread goes to sleep for the stage, and stays asleep
until the check that follows.  Each of its steps is one sleep. -/
structure Phase (staNetworkEn : Bool) (stage : Stage) (start : LooperSystem)
    (labels : List AutoReboot.Label) (finish : LooperSystem) : Prop where
  begins : ∃ before btrcSt action,
    AutoReboot.Step staNetworkEn before (.looper btrcSt action) start ∧
      ¬ Asleep stage before (.looper btrcSt action)
  asleep : Asleep stage start .stop
  path : Path (Restrict (AutoReboot.Step staNetworkEn) (Asleep stage)) start
    labels finish
  ends : finish.looper = .sleptTest stage

section Phases

variable {staNetworkEn : Bool} {stage : Stage} {running : Nat → Bool}
variable {start finish : LooperSystem} {labels : List AutoReboot.Label}

/-- The thread goes to sleep from another place with the seconds of the call
site. -/
theorem cycleStep_sleeping {btrcSt : BtrcSt} {flag : Bool} {pc : LooperPc}
    {timeS : Nat} (sleeps : cycleStep btrcSt flag pc = .sleeping timeS stage) :
    (∃ earlier, pc = .sleeping earlier stage) ∨ timeS = seconds stage := by
  cases pc with
  | sleeping earlier stage' =>
      simp only [cycleStep] at sleeps
      split at sleeps
      · cases sleeps
        exact .inl ⟨earlier, rfl⟩
      · cases sleeps
  | loopTest =>
      simp only [cycleStep] at sleeps
      split at sleeps <;> cases sleeps
  | waitConnected tryWakeupCnt =>
      simp only [cycleStep] at sleeps
      split at sleeps <;> cases sleeps
      exact .inr rfl
  | waitedTest =>
      simp only [cycleStep] at sleeps
      split at sleeps <;> cases sleeps
      exact .inr rfl
  | sleptTest stage' =>
      simp only [cycleStep] at sleeps
      split at sleeps <;> cases stage' <;> cases sleeps
  | switchOff | switchOn =>
      cases sleeps
      exact .inr rfl
  | semTake | blocked | enter | wakeup => cases sleeps

/-- A phase begins with the seconds of its call site. -/
theorem Phase.seconds (phase : Phase staNetworkEn stage start labels finish) :
    start.looper = .sleeping (seconds stage) stage := by
  obtain ⟨before, btrcSt, action, taken, awake⟩ := phase.begins
  obtain ⟨timeS, asleep⟩ := phase.asleep
  rcases looperStep_cases (action_of_step taken).2 with
    ⟨-, -, rfl⟩ | ⟨-, -, rfl⟩ | ⟨-, rfl⟩ | ⟨-, -, -, rfl⟩
  · cases asleep
  · cases asleep
  · cases asleep
  · rcases cycleStep_sleeping asleep with earlier | same
    · exact (awake earlier).elim
    · exact same ▸ asleep

/-- A command leaves a sleeping thread alone. -/
theorem cmdAutoRebootStart_asleep {timeS : Nat}
    (asleep : start.looper = .sleeping timeS stage) :
    (cmdAutoRebootStart start).looper = .sleeping timeS stage ∧
      (cmdAutoRebootStart start).gBtCkRunning = start.gBtCkRunning := by
  unfold cmdAutoRebootStart
  rw [if_neg (by rw [asleep]; exact nofun)]
  split
  · exact ⟨asleep, rfl⟩
  · exact ⟨asleep, rfl⟩

/-- The sleeps of what is left of a phase, by induction on its path. -/
theorem sleeps_of_path {timeS slept : Nat}
    (path : Path (Restrict (AutoReboot.Step staNetworkEn) (Asleep stage)) start
      labels finish)
    (asleep : start.looper = .sleeping timeS stage)
    (ends : finish.looper = .sleptTest stage)
    (shows : ∀ i, (flags start.gBtCkRunning labels).getD i true =
      running (slept + 1 + i)) :
    slept + (flags start.gBtCkRunning labels).length =
      (firstCleared running (slept + 1) timeS).getD (slept + timeS + 1) := by
  induction path generalizing timeS slept with
  | nil =>
      rw [asleep] at ends
      cases ends
  | @cons before middle last label labels head tail ih =>
      obtain ⟨taken, -⟩ := head
      cases label with
      | start =>
          cases taken
          obtain ⟨asleep', same⟩ := cmdAutoRebootStart_asleep asleep
          have rest := ih asleep' ends (by rw [same]; exact shows)
          rw [same] at rest
          exact rest
      | stop =>
          cases taken
          exact ih asleep ends shows
      | looper btrcSt action =>
          have taken := (action_of_step taken).2
          rw [looperStep, asleep] at taken
          cases taken
          have flag : before.gBtCkRunning = running (slept + 1) := shows 0
          have later (i : Nat) : (flags before.gBtCkRunning labels).getD i true =
              running (slept + 1 + 1 + i) := by
            rw [Nat.add_assoc (slept + 1), Nat.add_comm 1 i]
            exact shows (i + 1)
          change slept + ((flags before.gBtCkRunning labels).length + 1) = _
          by_cases goesOn : timeS ≠ 0 ∧ before.gBtCkRunning = true
          · have rest := ih (if_pos goesOn) ends later
            obtain ⟨left, rfl⟩ := Nat.exists_eq_succ_of_ne_zero goesOn.1
            have total : slept + 1 + left + 1 = slept + left.succ + 1 := by omega
            rw [firstCleared_succ, if_pos (flag ▸ goesOn.2), ← total,
              ← Nat.add_assoc, Nat.add_right_comm]
            exact rest
          · have ended : cycleStep btrcSt before.gBtCkRunning
                (.sleeping timeS stage) = .sleptTest stage := if_neg goesOn
            have noLabels : labels = [] := by
              cases tail with
              | nil => rfl
              | cons next _ =>
                  obtain ⟨-, _, stillAsleep⟩ := next
                  rw [ended] at stillAsleep
                  cases stillAsleep
            subst noLabels
            cases timeS with
            | zero => rfl
            | succ left =>
                have cleared : ¬ running (slept + 1) = true := by
                  rw [← flag]
                  exact fun set => goesOn ⟨Nat.succ_ne_zero left, set⟩
                rw [firstCleared_succ, if_neg cleared]
                rfl

/-- The run lemma of a phase. -/
theorem Phase.sleeps (phase : Phase staNetworkEn stage start labels finish) :
    (flags start.gBtCkRunning labels).length =
      (firstCleared (streamOf (flags start.gBtCkRunning labels)) 1
        (BtCkSleep.seconds stage)).getD (BtCkSleep.seconds stage + 1) := by
  have shows (i : Nat) : (flags start.gBtCkRunning labels).getD i true =
      streamOf (flags start.gBtCkRunning labels) (0 + 1 + i) := by
    simp [streamOf, Nat.add_comm]
  have whole := sleeps_of_path phase.path phase.seconds phase.ends shows
  simpa using whole

/-- `bt_ck_k_sleep` sleeps as long as it is asked to, for every number of seconds
and every stream of the flag, exactly if the flag is cleared before the time is
up.  The same goes for the phases of the looper and the seconds of their call
sites. -/
theorem sleeps_as_asked_iff (timeS : Int32) (running : Nat → Bool)
    (nonneg : 0 ≤ timeS.toInt) :
    (Sleeps timeS running (sleepsAsked timeS.toInt.toNat running) ↔
        StoppedWithin timeS.toInt.toNat running) ∧
      ∀ staNetworkEn stage start labels finish,
        Phase staNetworkEn stage start labels finish →
        ((flags start.gBtCkRunning labels).length =
            sleepsAsked (seconds stage)
              (streamOf (flags start.gBtCkRunning labels)) ↔
          StoppedWithin (seconds stage)
            (streamOf (flags start.gBtCkRunning labels))) := by
  constructor
  · rw [sleeps_iff nonneg]
    exact one_more_eq_asked_iff
  · intro staNetworkEn stage start labels finish phase
    rw [phase.sleeps]
    exact one_more_eq_asked_iff

/-- A cycle that is stopped during the second sleep after switching off. -/
theorem stopped_while_off :
    Phase true .off ⟨0, true, .sleeping 5 .off⟩
      [.looper .disconnecte none, .stop, .looper .disconnecte none]
      ⟨0, false, .sleptTest .off⟩ where
  begins := by
    refine ⟨⟨0, true, .switchOff⟩, .disconnecte, some (.runSetSkV 0), rfl, ?_⟩
    rintro ⟨timeS, asleep⟩
    cases asleep
  asleep := ⟨5, rfl⟩
  path := .cons ⟨rfl, 5, rfl⟩ (.cons ⟨rfl, 4, rfl⟩ (.cons ⟨rfl, 4, rfl⟩ (.nil _)))
  ends := rfl

theorem stopped_in_time :
    Sleeps 5 (fun sleep => sleep < 2) 2 ∧
      (flags true [.looper .disconnecte none, .stop,
        .looper .disconnecte none]).length = 2 := by
  obtain ⟨call, phases⟩ :=
    sleeps_as_asked_iff 5 (fun sleep => sleep < 2) (by decide)
  constructor
  · exact call.mpr ⟨2, by decide, by decide, rfl⟩
  · exact (phases _ _ _ _ _ stopped_while_off).mpr
      ⟨2, by decide, by decide, rfl⟩

/-- Five seconds that nobody stops take six. -/
theorem five_seconds_take_six :
    sleepsAsked 5 (fun _ => true) = 5 ∧ Sleeps 5 (fun _ => true) 6 ∧
      ¬ Sleeps 5 (fun _ => true) (sleepsAsked 5 fun _ => true) := by
  refine ⟨by decide, (sleeps_iff (by decide) 6).mpr (by decide), ?_⟩
  intro asked
  exact absurd ((sleeps_iff (by decide) _).mp asked) (by decide)

end Phases

end BtCkSleep

end AutoReboot

end SzpiSta
