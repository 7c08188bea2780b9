import SzpiSta.BleRc
import SzpiSta.RpcRoute

/-!
# How long an advertisement is asked to last

The three ways to start advertising for some seconds: the commands `start_adv` and
`start_wakeup`, and the RPC function `ble_adv`.  None of them looks at the number
it passes on, and `try_advertising_start` multiplies it by 1000 as an `int`.  So a
number from 2147484 on arms the timer with what is left of the product, and a
negative one is not refused.
-/

namespace SzpiSta

namespace BleRc

open TransitionPaths RpcRoute CStrings

/-- The number of seconds in the arguments of a command, 5 without one.  The
arguments include the name of the command. -/
def continueTimeS : List CString → Int32
  | _ :: time :: _ => atoi time
  | _ => 5

def cmdStartAdv (argv : List CString) : AdvCall :=
  .tryAdvertisingStart false (continueTimeS argv)

def cmdWakeup (argv : List CString) : AdvCall :=
  .tryAdvertisingStart true (continueTimeS argv)

/-- A request to start advertising. -/
inductive StartRequest where
  | startAdv (argv : List CString)
  | startWakeup (argv : List CString)
  | rpc (paras : List Parameter)

def StartRequest.calls : StartRequest → List AdvCall
  | .startAdv argv => [cmdStartAdv argv]
  | .startWakeup argv => [cmdWakeup argv]
  | .rpc paras => (funcBleAdv paras).advCalls

/-- Some run leads from boot to the state. -/
def Reachable (s : BleSystem) : Prop :=
  ∃ start labels, Booted start ∧ Path Step start labels s

/-- What a start is meant to do, whatever happens before it and during its
sleep. -/
structure Honoured (isWakeup : Bool) (timeS : Int32) : Prop where
  noOverflow : 0 < timeS → (timeS * 1000).toInt = timeS.toInt * 1000
  schedules : 0 < timeS → ∀ s sleeper s', Reachable s →
    s.starting[sleeper]? = some timeS → Step s (.startEnd sleeper) s' →
    s'.ble.advModeSwitchWork.timer = some (timeS.toInt.toNat * 1000)
  rejectsBegin : timeS < 0 → ∀ s stopErr s', Reachable s →
    Step s (.startBegin isWakeup timeS stopErr) s' → s'.ble = s.ble
  rejectsEnd : timeS < 0 → ∀ s sleeper s', Reachable s →
    s.starting[sleeper]? = some timeS → Step s (.startEnd sleeper) s' →
    s'.ble = s.ble

section Duration

variable {s s' : BleSystem} {isWakeup : Bool} {timeS : Int32}

theorem product_eq_iff (positive : 0 < timeS) :
    (timeS * 1000).toInt = timeS.toInt * 1000 ↔ timeS.toInt ≤ 2147483 := by
  have positive : 0 < timeS.toInt := Int32.lt_iff_toInt_lt.mp positive
  constructor
  · intro same
    have := (timeS * 1000).toInt_lt
    omega
  · intro small
    rw [Int32.toInt_mul]
    change (timeS.toInt * 1000).bmod (2 ^ 32) = _
    apply Int.bmod_eq_of_le_mul_two <;> omega

theorem kMsec_of_product
    (exactly : (timeS * 1000).toInt = timeS.toInt * 1000) :
    kMsec (timeS * 1000) = timeS.toInt.toNat * 1000 := by
  rw [kMsec, exactly]
  omega

/-- Whatever is left of the product, a start that is given a number other than
zero schedules a switch. -/
theorem pending_of_started (nonzero : timeS ≠ 0) (ble : BleState) :
    (tryAdvertisingStartEnd timeS ble).advModeSwitchWork.Pending := by
  rw [tryAdvertisingStartEnd_eq]
  dsimp only
  rw [if_pos nonzero]
  exact DelayableWork.pending_reschedule _ _

theorem schedules_of_product (positive : 0 < timeS)
    (exactly : (timeS * 1000).toInt = timeS.toInt * 1000) (ble : BleState) :
    (tryAdvertisingStartEnd timeS ble).advModeSwitchWork.timer =
      some (timeS.toInt.toNat * 1000) := by
  have positive : 0 < timeS.toInt := Int32.lt_iff_toInt_lt.mp positive
  have nonzero : timeS ≠ 0 := by
    rintro rfl
    cases positive
  rw [tryAdvertisingStartEnd_eq]
  dsimp only
  rw [if_pos nonzero, kMsec_of_product exactly, DelayableWork.reschedule,
    if_neg (by omega)]

/-- The only start after boot, about to end its sleep. -/
def startedAfterBoot (isWakeup : Bool) (timeS : Int32) : BleSystem :=
  { bootedWith [] with
    ble := tryAdvertisingStartBegin isWakeup 0 (bootedWith []).ble
    starting := [timeS] }

theorem startedAfterBoot_reachable :
    Reachable (startedAfterBoot isWakeup timeS) :=
  ⟨bootedWith [], [.startBegin isWakeup timeS 0], bootedWith_booted [],
    path_singleton_iff.mpr rfl⟩

/-- A negative number schedules a switch as well. -/
theorem not_rejected (negative : timeS < 0) : ¬ Honoured isWakeup timeS := by
  intro honoured
  have nonzero : timeS ≠ 0 := by
    rintro rfl
    exact absurd negative (by decide)
  have same := honoured.rejectsEnd negative (startedAfterBoot isWakeup timeS) 0
    _ startedAfterBoot_reachable rfl rfl
  have pending := pending_of_started nonzero
    (startedAfterBoot isWakeup timeS).ble
  rw [show tryAdvertisingStartEnd timeS (startedAfterBoot isWakeup timeS).ble =
    (startedAfterBoot isWakeup timeS).ble from same] at pending
  exact DelayableWork.not_pending_cancel .idle pending

theorem honoured_iff :
    Honoured isWakeup timeS ↔ 0 ≤ timeS.toInt ∧ timeS.toInt ≤ 2147483 := by
  constructor
  · intro honoured
    constructor
    · by_contra negative
      refine not_rejected ?_ honoured
      exact Int32.lt_iff_toInt_lt.mpr (Int.not_le.mp negative)
    · by_cases positive : 0 < timeS
      · exact (product_eq_iff positive).mp (honoured.noOverflow positive)
      · have := mt Int32.lt_iff_toInt_lt.mpr positive
        rw [Int32.toInt_zero] at this
        omega
  · rintro ⟨nonneg, small⟩
    have notNegative : ¬ timeS < 0 := by
      rw [Int32.lt_iff_toInt_lt]
      exact Int.not_lt.mpr nonneg
    refine ⟨fun positive => ?_, fun positive s sleeper s' _ asleep taken => ?_,
      fun negative => (notNegative negative).elim,
      fun negative => (notNegative negative).elim⟩
    · exact (product_eq_iff positive).mpr small
    · cases step_effect taken with
      | startEnd _ timeS' asleep' =>
          obtain rfl := Option.some.inj (asleep.symm.trans asleep')
          exact schedules_of_product positive
            ((product_eq_iff positive).mpr small) _

/-- Every start a request leads to is honoured exactly if the numbers it passes
on are between 0 and 2147483. -/
theorem start_honoured_iff (request : StartRequest) :
    (∀ isWakeup timeS, .tryAdvertisingStart isWakeup timeS ∈ request.calls →
        Honoured isWakeup timeS) ↔
      ∀ isWakeup timeS, .tryAdvertisingStart isWakeup timeS ∈ request.calls →
        0 ≤ timeS.toInt ∧ timeS.toInt ≤ 2147483 := by
  constructor
  · exact fun honoured isWakeup timeS asked =>
      honoured_iff.mp (honoured isWakeup timeS asked)
  · exact fun inRange isWakeup timeS asked =>
      honoured_iff.mpr (inRange isWakeup timeS asked)

/-- `start_adv 2147484`: the product wraps to a negative number. -/
theorem start_adv_too_long :
    (StartRequest.startAdv
        [cString "start_adv", cString "2147484"]).calls =
        [.tryAdvertisingStart false 2147484] ∧
      ((2147484 : Int32) * 1000).toInt = -2147483296 ∧
      ¬ Honoured false 2147484 := by
  refine ⟨by decide, by decide, fun honoured => ?_⟩
  exact absurd (honoured_iff.mp honoured).2 (by decide)

end Duration

end BleRc

end SzpiSta
