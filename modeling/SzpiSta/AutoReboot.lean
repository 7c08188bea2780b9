import SzpiSta.BleRc

/-!
# The reboot looper and its commands

The thread of ble_rc.c that switches the television off and on and wakes it up,
again and again.  `auto_reboot_start` gives its semaphore, and `auto_reboot_stop`
clears its flag, which the thread sets when it begins.  A stop takes back no
start that the semaphore remembers or that the thread has just taken, so it
lasts exactly if there is none.
-/

namespace SzpiSta

namespace AutoReboot

open TransitionPaths BleRc

/-- Where a cycle stands when it sleeps: it has switched off, has switched on,
waits for the connection, or is connected.  The `int` of the polls is a natural
number here: it grows by one after sleeps of a second each, so it would take 68
years in one wait to overflow. -/
inductive Stage where
  | off
  | on
  | waiting (tryWakeupCnt : Nat)
  | connected
  deriving DecidableEq

/-- Where the thread is, up to its next access to what it shares. -/
inductive LooperPc where
  /-- Before `k_sem_take`. -/
  | semTake
  /-- Asleep in `k_sem_take`. -/
  | blocked
  /-- Before the flag is set. -/
  | enter
  /-- At the condition of the loop. -/
  | loopTest
  | switchOff
  | switchOn
  | wakeup
  /-- At the condition of `__wait_rc_connected`. -/
  | waitConnected (tryWakeupCnt : Nat)
  /-- In the `k_sleep` of `bt_ck_k_sleep`. -/
  | sleeping (timeS : Nat) (stage : Stage)
  /-- At the check that follows `bt_ck_k_sleep`. -/
  | sleptTest (stage : Stage)
  /-- At the check that follows `__wait_rc_connected`. -/
  | waitedTest
  deriving DecidableEq

/-- `bt_ck_run_sem`, `g_bt_ck_running` and the thread. -/
structure LooperSystem where
  btCkRunSem : Nat
  gBtCkRunning : Bool
  looper : LooperPc

def btCkRunSemLimit : Nat := 1

/-- `cmd_auto_reboot_start`: the semaphore is handed to the thread if that waits
for it, and else counted up to its limit. -/
def cmdAutoRebootStart (s : LooperSystem) : LooperSystem :=
  if s.looper = .blocked then { s with looper := .enter }
  else if s.btCkRunSem < btCkRunSemLimit then
    { s with btCkRunSem := s.btCkRunSem + 1 }
  else s

def cmdAutoRebootStop (s : LooperSystem) : LooperSystem :=
  { s with gBtCkRunning := false }

inductive LooperAction where
  | runSetSkV (v : UInt8)
  | tryAdvertisingStart (isWakeup : Bool) (timeS : Int32)
  deriving DecidableEq

def blercWakeupTimeS (staNetworkEn : Bool) : Int32 :=
  if staNetworkEn then 10 else 6

/-- The call the thread makes at its next step. -/
def LooperPc.action (staNetworkEn : Bool) (btrcSt : BtrcSt) :
    LooperPc → Option LooperAction
  | .switchOff => some (.runSetSkV 0)
  | .switchOn => some (.runSetSkV 1)
  | .wakeup => some (.tryAdvertisingStart true (blercWakeupTimeS staNetworkEn))
  | .waitConnected tryWakeupCnt =>
      if btrcSt ≠ .securityLvOk ∧ tryWakeupCnt % 30 = 0 then
        some (.tryAdvertisingStart true (blercWakeupTimeS staNetworkEn))
      else none
  | _ => none

/-- `_bt_ck_looper_3` returns and `bt_ck_looper_thrd` goes round. -/
def leaveLooper : LooperPc := .semTake

/-- Where a stage goes on if the flag is still set after its sleep. -/
def Stage.next : Stage → LooperPc
  | .off => .switchOn
  | .on => .wakeup
  | .waiting tryWakeupCnt => .waitConnected (tryWakeupCnt + 1)
  | .connected => .loopTest

/-- Where a stage goes if it is not: out of `__wait_rc_connected`, or out of the
loop. -/
def Stage.giveUp : Stage → LooperPc
  | .waiting _ => .waitedTest
  | .off | .on | .connected => leaveLooper

/-- The steps of a cycle, which change neither the semaphore nor the flag. -/
def cycleStep (btrcSt : BtrcSt) (running : Bool) : LooperPc → LooperPc
  | .loopTest => if running then .switchOff else leaveLooper
  | .switchOff => .sleeping 5 .off
  | .switchOn => .sleeping 5 .on
  | .wakeup => .waitConnected 1
  | .waitConnected tryWakeupCnt =>
      if btrcSt ≠ .securityLvOk then .sleeping 1 (.waiting tryWakeupCnt)
      else .waitedTest
  | .sleeping timeS stage =>
      if timeS ≠ 0 ∧ running then .sleeping (timeS - 1) stage
      else .sleptTest stage
  | .sleptTest stage => if ¬ running then stage.giveUp else stage.next
  | .waitedTest =>
      if ¬ running then leaveLooper else .sleeping 30 .connected
  | pc => pc

/-- The next step of the thread, which reads `g_btrc_st` as `btrcSt`. -/
def looperStep (btrcSt : BtrcSt) (s : LooperSystem) : Option LooperSystem :=
  match s.looper with
  | .semTake =>
      if 0 < s.btCkRunSem then
        some { s with btCkRunSem := s.btCkRunSem - 1, looper := .enter }
      else some { s with looper := .blocked }
  | .blocked => none
  | .enter => some { s with gBtCkRunning := true, looper := .loopTest }
  | pc => some { s with looper := cycleStep btrcSt s.gBtCkRunning pc }

/-- The commands, and the steps of the thread with the call they make. -/
inductive Label where
  | start
  | stop
  | looper (btrcSt : BtrcSt) (action : Option LooperAction)
  deriving DecidableEq

def step (staNetworkEn : Bool) : Label → LooperSystem → Option LooperSystem
  | .start, s => some (cmdAutoRebootStart s)
  | .stop, s => some (cmdAutoRebootStop s)
  | .looper btrcSt action, s =>
      if action = s.looper.action staNetworkEn btrcSt then looperStep btrcSt s
      else none

abbrev Step (staNetworkEn : Bool) :
    LooperSystem → Label → LooperSystem → Prop :=
  FunctionStep (step staNetworkEn)

def booted : LooperSystem where
  btCkRunSem := 0
  gBtCkRunning := false
  looper := .semTake

/-- The thread is about to look at the flag, to go on with a cycle or to begin
the next. -/
def LooperPc.Checks : LooperPc → Prop
  | .loopTest | .sleptTest _ | .waitedTest => True
  | _ => False

def BeginsCycle (before : LooperSystem) (_ : Label) (after : LooperSystem) :
    Prop :=
  before.looper = .loopTest ∧ after.looper = .switchOff

/-- If the thread checks the flag here, it finds it cleared. -/
def Abandons (before : LooperSystem) : Prop :=
  before.looper.Checks → before.gBtCkRunning = false

def NotStarted (_ : LooperSystem) (label : Label) : Prop := label ≠ .start

/-- However the thread goes on without being started, it begins no cycle, and
the next check, and every later one, finds the flag cleared. -/
def StaysStopped (staNetworkEn : Bool) (s : LooperSystem) : Prop :=
  ∀ labels last, Path (Restrict (Step staNetworkEn) NotStarted) s labels last →
    EveryStep (Restrict (Step staNetworkEn) NotStarted)
      (fun before label after =>
        ¬ BeginsCycle before label after ∧ Abandons before)
      s labels last

/-- No start is remembered: the semaphore is not given, and the thread has not
just taken it. -/
structure NothingRemembered (s : LooperSystem) : Prop where
  btCkRunSem : s.btCkRunSem = 0
  notEntering : s.looper ≠ .enter

section Stopped

variable {staNetworkEn : Bool} {s s' : LooperSystem} {label : Label}

/-- The invariants of every run: the semaphore keeps its limit, and the thread
sleeps only on an empty one. -/
structure WellKept (s : LooperSystem) : Prop where
  btCkRunSem : s.btCkRunSem ≤ btCkRunSemLimit
  blocked : s.looper = .blocked → s.btCkRunSem = 0

theorem action_of_step {btrcSt : BtrcSt} {action : Option LooperAction}
    (taken : Step staNetworkEn s (.looper btrcSt action) s') :
    action = s.looper.action staNetworkEn btrcSt ∧
      looperStep btrcSt s = some s' :=
  Option.ite_none_right_eq_some.mp taken

/-- No step of a cycle goes to sleep in `k_sem_take` or enters the looper. -/
theorem cycleStep_cases (btrcSt : BtrcSt) (running : Bool) (pc : LooperPc)
    (inside : pc ≠ .blocked ∧ pc ≠ .enter) :
    cycleStep btrcSt running pc ≠ .blocked ∧
      cycleStep btrcSt running pc ≠ .enter := by
  cases pc with
  | blocked => exact (inside.1 rfl).elim
  | enter => exact (inside.2 rfl).elim
  | semTake | switchOff | switchOn | wakeup => exact ⟨nofun, nofun⟩
  | loopTest | waitConnected | sleeping | waitedTest =>
      simp only [cycleStep, leaveLooper]
      split <;> simp
  | sleptTest stage =>
      simp only [cycleStep]
      cases stage <;> split <;>
        simp [Stage.giveUp, Stage.next, leaveLooper]

theorem looperStep_cases {btrcSt : BtrcSt}
    (taken : looperStep btrcSt s = some s') :
    (s.looper = .semTake ∧ 0 < s.btCkRunSem ∧
        s' = { s with btCkRunSem := s.btCkRunSem - 1, looper := .enter }) ∨
      (s.looper = .semTake ∧ s.btCkRunSem = 0 ∧
        s' = { s with looper := .blocked }) ∨
      (s.looper = .enter ∧
        s' = { s with gBtCkRunning := true, looper := .loopTest }) ∨
      (s.looper ≠ .semTake ∧ s.looper ≠ .blocked ∧ s.looper ≠ .enter ∧
        s' = { s with looper := cycleStep btrcSt s.gBtCkRunning s.looper }) := by
  unfold looperStep at taken
  split at taken
  · rename_i atTake
    split at taken
    · rename_i given
      cases taken
      exact .inl ⟨atTake, given, rfl⟩
    · rename_i empty
      cases taken
      exact .inr (.inl ⟨atTake, Nat.eq_zero_of_not_pos empty, rfl⟩)
  · cases taken
  · rename_i entering
    cases taken
    exact .inr (.inr (.inl ⟨entering, rfl⟩))
  · rename_i notTake notBlocked notEnter
    cases taken
    exact .inr (.inr (.inr ⟨notTake, notBlocked, notEnter, rfl⟩))

theorem WellKept.step (kept : WellKept s) (taken : Step staNetworkEn s label s') :
    WellKept s' := by
  cases label with
  | start =>
      cases taken
      unfold cmdAutoRebootStart
      split
      · exact ⟨kept.btCkRunSem, nofun⟩
      · rename_i notBlocked
        split
        · rename_i below
          exact ⟨below, fun blocked => (notBlocked blocked).elim⟩
        · exact kept
  | stop =>
      cases taken
      exact ⟨kept.btCkRunSem, kept.blocked⟩
  | looper btrcSt action =>
      rcases looperStep_cases (action_of_step taken).2 with
        ⟨-, -, rfl⟩ | ⟨-, empty, rfl⟩ | ⟨-, rfl⟩ | ⟨-, notBlocked, notEnter, rfl⟩
      · exact ⟨Nat.le_trans (Nat.sub_le _ _) kept.btCkRunSem, nofun⟩
      · exact ⟨kept.btCkRunSem, fun _ => empty⟩
      · exact ⟨kept.btCkRunSem, nofun⟩
      · have away := (cycleStep_cases btrcSt s.gBtCkRunning s.looper
          ⟨notBlocked, notEnter⟩).1
        exact ⟨kept.btCkRunSem, fun blocked => (away blocked).elim⟩

theorem wellKept_of_run {labels : List Label}
    (run : Path (Step staNetworkEn) booted labels s) : WellKept s :=
  run.invariant WellKept (fun _ _ _ kept taken => kept.step taken)
    ⟨by decide, nofun⟩

/-- With nothing remembered and the flag cleared, every step that is not a start
leaves it so. -/
theorem NothingRemembered.step (nothing : NothingRemembered s)
    (cleared : s.gBtCkRunning = false) (taken : Step staNetworkEn s label s')
    (notStart : label ≠ .start) :
    NothingRemembered s' ∧ s'.gBtCkRunning = false := by
  cases label with
  | start => exact (notStart rfl).elim
  | stop =>
      cases taken
      exact ⟨⟨nothing.btCkRunSem, nothing.notEntering⟩, rfl⟩
  | looper btrcSt action =>
      rcases looperStep_cases (action_of_step taken).2 with
        ⟨-, given, rfl⟩ | ⟨-, -, rfl⟩ | ⟨entering, -⟩ | ⟨-, notBlocked, notEnter, rfl⟩
      · rw [nothing.btCkRunSem] at given
        cases given
      · exact ⟨⟨nothing.btCkRunSem, nofun⟩, cleared⟩
      · exact (nothing.notEntering entering).elim
      · have away := (cycleStep_cases btrcSt s.gBtCkRunning s.looper
          ⟨notBlocked, notEnter⟩).2
        exact ⟨⟨nothing.btCkRunSem, away⟩, cleared⟩

/-- A cycle begins only where the flag is found set. -/
theorem running_of_beginsCycle (taken : Step staNetworkEn s label s')
    (begins : BeginsCycle s label s') : s.gBtCkRunning = true := by
  obtain ⟨atTest, switches⟩ := begins
  cases label with
  | start =>
      cases taken
      unfold cmdAutoRebootStart at switches
      split at switches
      · cases switches
      · split at switches <;> rw [atTest] at switches <;> cases switches
  | stop =>
      cases taken
      rw [show (cmdAutoRebootStop s).looper = s.looper from rfl, atTest]
        at switches
      cases switches
  | looper btrcSt action =>
      have taken := (action_of_step taken).2
      rw [looperStep, atTest] at taken
      cases taken
      by_contra cleared
      simp [cycleStep, leaveLooper, cleared] at switches

theorem staysStopped_of_nothingRemembered (nothing : NothingRemembered s)
    (cleared : s.gBtCkRunning = false) : StaysStopped staNetworkEn s := by
  intro labels last _
  refine everyStep_of_invariant
    (fun s => NothingRemembered s ∧ s.gBtCkRunning = false)
    (fun _ _ _ quiet step => quiet.1.step quiet.2 step.1 step.2) ?_
    ⟨nothing, cleared⟩
  intro before label after quiet taken
  refine ⟨fun begins => ?_, fun _ => quiet.2⟩
  have running := running_of_beginsCycle taken.1 begins
  rw [quiet.2] at running
  cases running

end Stopped

section Remembered

variable {staNetworkEn : Bool} {s s' : LooperSystem}

/-- Without being started, the thread comes to begin a cycle. -/
abbrev BeginsLater (staNetworkEn : Bool) (s : LooperSystem) : Prop :=
  LeadsTo (Restrict (Step staNetworkEn) NotStarted) BeginsCycle s

/-- A step of the thread while the connection is down. -/
theorem looper_takes (moves : looperStep .disconnecte s = some s') :
    Restrict (Step staNetworkEn) NotStarted s
      (.looper .disconnecte (s.looper.action staNetworkEn .disconnecte)) s' :=
  ⟨Option.ite_none_right_eq_some.mpr ⟨rfl, moves⟩, nofun⟩

theorem BeginsLater.of_looper (moves : looperStep .disconnecte s = some s')
    (begins : BeginsLater staNetworkEn s') : BeginsLater staNetworkEn s :=
  LeadsTo.of_step (looper_takes moves) begins

/-- A thread that has taken the semaphore sets the flag whatever came in
between. -/
theorem beginsLater_of_enter (sem : Nat) (running : Bool) :
    BeginsLater staNetworkEn ⟨sem, running, .enter⟩ := by
  have enters : looperStep .disconnecte ⟨sem, running, .enter⟩ =
      some ⟨sem, true, .loopTest⟩ := rfl
  have begins : looperStep .disconnecte ⟨sem, true, .loopTest⟩ =
      some ⟨sem, true, .switchOff⟩ := rfl
  apply BeginsLater.of_looper enters
  exact ⟨[], _, _, _, .nil _, looper_takes begins, rfl, rfl⟩

theorem beginsLater_of_semTake (sem : Nat) (running : Bool) :
    BeginsLater staNetworkEn ⟨sem + 1, running, .semTake⟩ := by
  have takes : looperStep .disconnecte ⟨sem + 1, running, .semTake⟩ =
      some ⟨sem, running, .enter⟩ := rfl
  exact BeginsLater.of_looper takes (beginsLater_of_enter sem running)

/-- The cleared flag brings a cycle to `k_sem_take`, from every stage asleep. -/
theorem beginsLater_of_sleeping (sem timeS : Nat) (stage : Stage) :
    BeginsLater staNetworkEn ⟨sem + 1, false, .sleeping timeS stage⟩ := by
  have wakes : looperStep .disconnecte
      ⟨sem + 1, false, .sleeping timeS stage⟩ =
      some ⟨sem + 1, false, .sleptTest stage⟩ := by
    simp [looperStep, cycleStep]
  apply BeginsLater.of_looper wakes
  have again : BeginsLater staNetworkEn ⟨sem + 1, false, .semTake⟩ :=
    beginsLater_of_semTake sem false
  cases stage with
  | waiting tryWakeupCnt =>
      have returns : looperStep .disconnecte
          ⟨sem + 1, false, .sleptTest (.waiting tryWakeupCnt)⟩ =
          some ⟨sem + 1, false, .waitedTest⟩ := rfl
      have breaks : looperStep .disconnecte ⟨sem + 1, false, .waitedTest⟩ =
          some ⟨sem + 1, false, .semTake⟩ := rfl
      exact BeginsLater.of_looper returns (BeginsLater.of_looper breaks again)
  | off | on | connected => exact BeginsLater.of_looper rfl again

/-- With a start remembered in the semaphore, the cleared flag only brings the
thread to the next cycle sooner. -/
theorem beginsLater_of_given (sem : Nat) (pc : LooperPc)
    (awake : pc ≠ .blocked) :
    BeginsLater staNetworkEn ⟨sem + 1, false, pc⟩ := by
  have again : BeginsLater staNetworkEn ⟨sem + 1, false, .semTake⟩ :=
    beginsLater_of_semTake sem false
  have waits (tryWakeupCnt : Nat) : BeginsLater staNetworkEn
      ⟨sem + 1, false, .waitConnected tryWakeupCnt⟩ :=
    BeginsLater.of_looper rfl
      (beginsLater_of_sleeping sem 1 (.waiting tryWakeupCnt))
  cases pc with
  | semTake => exact again
  | blocked => exact (awake rfl).elim
  | enter => exact beginsLater_of_enter (sem + 1) false
  | loopTest | waitedTest => exact BeginsLater.of_looper rfl again
  | switchOff | switchOn =>
      exact BeginsLater.of_looper rfl (beginsLater_of_sleeping sem 5 _)
  | wakeup => exact BeginsLater.of_looper rfl (waits 1)
  | waitConnected tryWakeupCnt => exact waits tryWakeupCnt
  | sleeping timeS stage => exact beginsLater_of_sleeping sem timeS stage
  | sleptTest stage =>
      cases stage with
      | waiting tryWakeupCnt =>
          have breaks : looperStep .disconnecte ⟨sem + 1, false, .waitedTest⟩ =
              some ⟨sem + 1, false, .semTake⟩ := rfl
          exact BeginsLater.of_looper rfl (BeginsLater.of_looper breaks again)
      | off | on | connected => exact BeginsLater.of_looper rfl again

theorem not_staysStopped_of_beginsLater (begins : BeginsLater staNetworkEn s) :
    ¬ StaysStopped staNetworkEn s := by
  intro stays
  apply everyStep_iff_not_leadsTo.mp stays
  obtain ⟨labels, before, label, after, path, taken, begun⟩ := begins
  exact ⟨labels, before, label, after, path, taken, fun quiet => quiet.1 begun⟩

theorem nothingRemembered_of_staysStopped (kept : WellKept s)
    (cleared : s.gBtCkRunning = false) (stays : StaysStopped staNetworkEn s) :
    NothingRemembered s := by
  have never (begins : BeginsLater staNetworkEn s) : False :=
    not_staysStopped_of_beginsLater begins stays
  rcases s with ⟨sem, running, pc⟩
  obtain rfl : running = false := cleared
  constructor
  · cases sem with
    | zero => rfl
    | succ sem =>
        refine (never (beginsLater_of_given sem pc fun blocked => ?_)).elim
        cases kept.blocked blocked
  · rintro rfl
    exact never (beginsLater_of_enter sem false)

end Remembered

/-- In every run, a stop lasts exactly if no start was remembered when it
came. -/
theorem reboot_stop_lasts_iff {staNetworkEn : Bool} {labels : List Label}
    {s s' : LooperSystem}
    (run : Path (Step staNetworkEn) booted labels s)
    (stops : Step staNetworkEn s .stop s') :
    StaysStopped staNetworkEn s' ↔ NothingRemembered s := by
  have kept := (wellKept_of_run run).step stops
  obtain rfl : cmdAutoRebootStop s = s' := Option.some.inj stops
  constructor
  · intro stays
    have nothing := nothingRemembered_of_staysStopped kept rfl stays
    exact ⟨nothing.btCkRunSem, nothing.notEntering⟩
  · intro nothing
    exact staysStopped_of_nothingRemembered
      ⟨nothing.btCkRunSem, nothing.notEntering⟩ rfl

/-- A thread that has begun its first cycle. -/
def firstCycle : List Label :=
  [.start, .looper .disconnecte none, .looper .disconnecte none,
    .looper .disconnecte none]

/-- One start, and a stop in the middle of its cycle. -/
theorem reboot_stop_of_one_start_lasts : ∃ s s',
    Path (Step true) booted firstCycle s ∧ Step true s .stop s' ∧
      StaysStopped true s' := by
  have run : Path (Step true) booted firstCycle ⟨0, true, .switchOff⟩ :=
    path_of_execute rfl
  have stops : Step true ⟨0, true, .switchOff⟩ .stop ⟨0, false, .switchOff⟩ :=
    rfl
  exact ⟨_, _, run, stops,
    (reboot_stop_lasts_iff run stops).mpr ⟨rfl, nofun⟩⟩

/-- Two starts, and one stop after them: the thread begins again. -/
theorem reboot_stop_of_two_starts_is_undone : ∃ s s',
    Path (Step true) booted (firstCycle ++ [.start]) s ∧
      Step true s .stop s' ∧ ¬ StaysStopped true s' := by
  have run : Path (Step true) booted (firstCycle ++ [.start])
      ⟨1, true, .switchOff⟩ := path_of_execute rfl
  have stops : Step true ⟨1, true, .switchOff⟩ .stop ⟨1, false, .switchOff⟩ :=
    rfl
  refine ⟨_, _, run, stops, not_staysStopped_of_beginsLater ?_⟩
  exact beginsLater_of_given 0 .switchOff nofun

end AutoReboot

end SzpiSta
