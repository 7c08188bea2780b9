import Mathlib.Data.Nat.Notation

/-!
# Delayable work items

A kernel work item with a timer.  Scheduling it arms the timer; when the timer
expires the item is queued, and the work queue runs it some time later.  An item
scheduled without delay is queued at once.  Cancelling takes back the timer and
the place in the queue, but not a run that has begun.
-/

namespace SzpiSta

/-- The state of an item, apart from a run in progress: the delay its timer is
armed with, and whether it is in the queue. -/
structure DelayableWork where
  timer : Option Nat
  queued : Bool
  deriving DecidableEq, Repr

namespace DelayableWork

def idle : DelayableWork := ⟨none, false⟩

/-- `k_work_cancel_delayable`. -/
def cancel (_ : DelayableWork) : DelayableWork := idle

/-- `k_work_reschedule`. -/
def reschedule (delayMs : Nat) (work : DelayableWork) : DelayableWork :=
  if delayMs = 0 then ⟨none, true⟩ else ⟨some delayMs, work.queued⟩

/-- The timer expires. -/
def expire (_ : DelayableWork) : DelayableWork := ⟨none, true⟩

/-- The queue takes the item up. -/
def take (work : DelayableWork) : DelayableWork := { work with queued := false }

/-- The item will run unless it is cancelled. -/
def Pending (work : DelayableWork) : Prop :=
  work.timer.isSome ∨ work.queued

instance (work : DelayableWork) : Decidable work.Pending :=
  inferInstanceAs (Decidable (_ ∨ _))

@[simp]
theorem not_pending_cancel (work : DelayableWork) : ¬ work.cancel.Pending := by
  simp [Pending, cancel, idle]

@[simp]
theorem pending_reschedule (delayMs : Nat) (work : DelayableWork) :
    (work.reschedule delayMs).Pending := by
  unfold reschedule
  split
  · exact .inr rfl
  · exact .inl rfl

end DelayableWork

end SzpiSta
