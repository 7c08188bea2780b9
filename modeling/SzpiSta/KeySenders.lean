import Mathlib.Data.Fintype.Basic
import Mathlib.Logic.Function.Basic
import SzpiSta.HidService
import SzpiSta.Simulations

/-!
# Calls of `do_send_key` at the same time

All calls share the buffer `report_val`, and each of them sleeps between its two
notifications.  Calls that overlap may lose keys, since one clears what the other
has set, but no key is left pressed: a report with a key is the last one only
while a call for that key still owes its release.  Calls that do not overlap are
`do_send_key` one after another.  A step is one access to the buffer, of which
only the byte of the key ever changes.
-/

namespace SzpiSta

namespace KeySenders

open TransitionPaths HidItems HidService

/-- Where a thread is in `do_send_key`: not there, or behind its call, the first
`memset`, the store of the key, the first notification, or the second
`memset`. -/
inductive SenderPc where
  | idle
  | called (key : UInt8)
  | cleared (key : UInt8)
  | stored (key : UInt8)
  | pressed (key : UInt8)
  | clearedAgain (key : UInt8)
  deriving DecidableEq

structure KeySystem (Thread : Type) where
  reportVal : ReportVal
  senders : Thread → SenderPc
  /-- The notifications so far. -/
  sent : List ReportVal

/-- A call, one of its steps up to the second `memset`, and the notification
with which it returns. -/
inductive Label (Thread : Type) where
  | call (thread : Thread) (key : UInt8)
  | moves (thread : Thread)
  | returns (thread : Thread) (key : UInt8)

/-- The next access to the buffer, where it is not the last. -/
def moved : SenderPc → ReportVal → List ReportVal →
    Option (SenderPc × ReportVal × List ReportVal)
  | .called key, reportVal, sent => some (.cleared key, clearVal reportVal, sent)
  | .cleared key, reportVal, sent =>
      some (.stored key, setKey key reportVal, sent)
  | .stored key, reportVal, sent =>
      some (.pressed key, reportVal, sent ++ [reportVal])
  | .pressed key, reportVal, sent =>
      some (.clearedAgain key, clearVal reportVal, sent)
  | .idle, _, _ | .clearedAgain _, _, _ => none

section Step

variable {Thread : Type} [DecidableEq Thread]

def step : Label Thread → KeySystem Thread → Option (KeySystem Thread)
  | .call thread key, s =>
      if s.senders thread = .idle then
        some { s with
          senders := Function.update s.senders thread (.called key) }
      else none
  | .moves thread, s =>
      (moved (s.senders thread) s.reportVal s.sent).map
        fun (pc, reportVal, sent) =>
          { reportVal, senders := Function.update s.senders thread pc, sent }
  | .returns thread key, s =>
      if s.senders thread = .clearedAgain key then
        some { s with
          senders := Function.update s.senders thread .idle
          sent := s.sent ++ [s.reportVal] }
      else none

abbrev Step : KeySystem Thread → Label Thread → KeySystem Thread → Prop :=
  FunctionStep step

/-- What a step requires and does, with the thread that takes it and where that
goes. -/
inductive Effect (s : KeySystem Thread) (thread : Thread) :
    Label Thread → SenderPc → ReportVal → List ReportVal → Prop where
  | call (key : UInt8) (idle : s.senders thread = .idle) :
      Effect s thread (.call thread key) (.called key) s.reportVal s.sent
  | clears (key : UInt8) (called : s.senders thread = .called key) :
      Effect s thread (.moves thread) (.cleared key) (clearVal s.reportVal)
        s.sent
  | stores (key : UInt8) (cleared : s.senders thread = .cleared key) :
      Effect s thread (.moves thread) (.stored key) (setKey key s.reportVal)
        s.sent
  | presses (key : UInt8) (stored : s.senders thread = .stored key) :
      Effect s thread (.moves thread) (.pressed key) s.reportVal
        (s.sent ++ [s.reportVal])
  | clearsAgain (key : UInt8) (pressed : s.senders thread = .pressed key) :
      Effect s thread (.moves thread) (.clearedAgain key)
        (clearVal s.reportVal) s.sent
  | returns (key : UInt8) (cleared : s.senders thread = .clearedAgain key) :
      Effect s thread (.returns thread key) .idle s.reportVal
        (s.sent ++ [s.reportVal])

theorem step_effect {s s' : KeySystem Thread} {label : Label Thread}
    (taken : Step s label s') :
    ∃ thread pc, s'.senders = Function.update s.senders thread pc ∧
      Effect s thread label pc s'.reportVal s'.sent := by
  have taken : step label s = some s' := taken
  cases label with
  | call thread key =>
      obtain ⟨idle, ⟨⟩⟩ := Option.ite_none_right_eq_some.mp taken
      exact ⟨thread, _, rfl, .call key idle⟩
  | moves thread =>
      obtain ⟨⟨pc, reportVal, sent⟩, goes, rfl⟩ :=
        Option.map_eq_some_iff.mp taken
      refine ⟨thread, pc, rfl, ?_⟩
      cases place : s.senders thread with
      | idle | clearedAgain =>
          rw [place] at goes
          cases goes
      | called key =>
          rw [place] at goes
          cases goes
          exact .clears key place
      | cleared key =>
          rw [place] at goes
          cases goes
          exact .stores key place
      | stored key =>
          rw [place] at goes
          cases goes
          exact .presses key place
      | pressed key =>
          rw [place] at goes
          cases goes
          exact .clearsAgain key place
  | returns thread key =>
      obtain ⟨cleared, ⟨⟩⟩ := Option.ite_none_right_eq_some.mp taken
      exact ⟨thread, _, rfl, .returns key cleared⟩

end Step

/-- The buffer without a key. -/
def clearedVal : ReportVal := Vector.replicate 8 0

/-- The buffer with a key. -/
def pressedVal (key : UInt8) : ReportVal := setKey key clearedVal

/-- The call has stored its key and not yet cleared it. -/
def SenderPc.Holds (key : UInt8) (pc : SenderPc) : Prop :=
  pc = .stored key ∨ pc = .pressed key

/-- The call has stored its key and not yet notified the release. -/
def SenderPc.Owes (key : UInt8) (pc : SenderPc) : Prop :=
  pc.Holds key ∨ pc = .clearedAgain key

section Invariant

variable {Thread : Type} {s s' : KeySystem Thread}

/-- A report shows no key, or one of a call that is at some such place. -/
def ShownBy (place : UInt8 → SenderPc → Prop) (senders : Thread → SenderPc)
    (report : ReportVal) : Prop :=
  report = clearedVal ∨
    ∃ thread key, report = pressedVal key ∧ place key (senders thread)

/-- The invariant: a key in the buffer is held by its call, and one in the last
report is owed a release. -/
structure KeysOwed (s : KeySystem Thread) : Prop where
  buffer : ShownBy SenderPc.Holds s.senders s.reportVal
  last : ∀ report ∈ s.sent.getLast?, ShownBy SenderPc.Owes s.senders report

theorem ShownBy.mono {place weaker : UInt8 → SenderPc → Prop}
    {senders : Thread → SenderPc} {report : ReportVal}
    (shown : ShownBy place senders report)
    (weaken : ∀ key pc, place key pc → weaker key pc) :
    ShownBy weaker senders report := by
  rcases shown with same | ⟨thread, key, same, held⟩
  · exact .inl same
  · exact .inr ⟨thread, key, same, weaken key _ held⟩

theorem setKey_of_shownBy {place : UInt8 → SenderPc → Prop}
    {senders : Thread → SenderPc} {report : ReportVal} (key : UInt8)
    (shown : ShownBy place senders report) :
    setKey key report = pressedVal key := by
  rcases shown with rfl | ⟨thread, other, rfl, -⟩
  · rfl
  · simp [pressedVal, setKey]

/-- What a peer reads off the buffer. -/
theorem pressed_of_shownBy {place : UInt8 → SenderPc → Prop}
    {report : ReportVal} (shown : ShownBy place s.senders report)
    (sees : pressed reportFields input.id.toNat report.toList ≠ []) :
    ∃ thread key,
      pressed reportFields input.id.toNat report.toList = usageOf key.toNat ∧
        place key (s.senders thread) := by
  rcases shown with rfl | ⟨thread, key, rfl, held⟩
  · exact (sees (pressed_clearVal clearedVal)).elim
  · exact ⟨thread, key, pressed_setKey key clearedVal, held⟩

variable [DecidableEq Thread]

/-- A call moves on that keeps what it has. -/
theorem ShownBy.update {place : UInt8 → SenderPc → Prop}
    {senders : Thread → SenderPc} {report : ReportVal} {thread : Thread}
    {pc : SenderPc} (shown : ShownBy place senders report)
    (keeps : ∀ key, place key (senders thread) → place key pc) :
    ShownBy place (Function.update senders thread pc) report := by
  rcases shown with same | ⟨owner, key, same, held⟩
  · exact .inl same
  · refine .inr ⟨owner, key, same, ?_⟩
    by_cases own : owner = thread
    · subst own
      rw [Function.update_self]
      exact keeps key held
    · rw [Function.update_of_ne own]
      exact held

/-- The step lemma. -/
theorem KeysOwed.step {label : Label Thread} (owed : KeysOwed s)
    (taken : Step s label s') : KeysOwed s' := by
  obtain ⟨thread, pc, senders, effect⟩ := step_effect taken
  rcases s' with ⟨reportVal, senders', sent⟩
  dsimp only at senders effect
  subst senders
  have sentLast {report : ReportVal} {reports : List ReportVal} :
      report ∈ (reports ++ [s.reportVal]).getLast? → report = s.reportVal := by
    intro member
    rw [List.getLast?_concat] at member
    exact (Option.mem_some_iff.mp member).symm
  cases effect with
  | call key idle =>
      constructor
      · exact owed.buffer.update fun _ held => by
          simp [SenderPc.Holds, idle] at held
      · exact fun report member => (owed.last report member).update
          fun _ owes => by simp [SenderPc.Owes, SenderPc.Holds, idle] at owes
  | clears key called =>
      constructor
      · exact .inl rfl
      · exact fun report member => (owed.last report member).update
          fun _ owes => by simp [SenderPc.Owes, SenderPc.Holds, called] at owes
  | stores key cleared =>
      constructor
      · refine .inr ⟨thread, key, setKey_of_shownBy key owed.buffer, ?_⟩
        exact .inl (Function.update_self ..)
      · exact fun report member => (owed.last report member).update
          fun _ owes => by simp [SenderPc.Owes, SenderPc.Holds, cleared] at owes
  | presses key stored =>
      have buffer : ShownBy SenderPc.Holds
          (Function.update s.senders thread (.pressed key)) s.reportVal :=
        owed.buffer.update fun other held => by
          simpa [SenderPc.Holds, stored] using held
      constructor
      · exact buffer
      · intro report member
        rw [sentLast member]
        exact buffer.mono fun _ _ holds => .inl holds
  | clearsAgain key pressed =>
      constructor
      · exact .inl rfl
      · exact fun report member => (owed.last report member).update
          fun other owes => by
            simpa [SenderPc.Owes, SenderPc.Holds, pressed] using owes
  | returns key cleared =>
      have buffer : ShownBy SenderPc.Holds
          (Function.update s.senders thread .idle) s.reportVal :=
        owed.buffer.update fun _ held => by
          simp [SenderPc.Holds, cleared] at held
      constructor
      · exact buffer
      · intro report member
        rw [sentLast member]
        exact buffer.mono fun _ _ holds => .inl holds

end Invariant

/-- No call has been made. -/
def booted (Thread : Type) : KeySystem Thread where
  reportVal := clearedVal
  senders := fun _ => .idle
  sent := []

section Runs

variable {Thread : Type} [DecidableEq Thread]
variable {s s' : KeySystem Thread} {labels : List (Label Thread)}

theorem keysOwed_of_run (run : Path Step (booted Thread) labels s) :
    KeysOwed s := by
  apply run.invariant KeysOwed fun _ _ _ owed taken => owed.step taken
  constructor
  · exact .inl rfl
  · exact fun _ member => by cases member

theorem not_owes_idle (key : UInt8) : ¬ SenderPc.idle.Owes key := by
  simp [SenderPc.Owes, SenderPc.Holds]

end Runs

/-- Two callers of `do_send_key`.  As the code is built the shell is the only one:
no thread runs `_bt_ck_looper`, which calls it too. -/
inductive KeyThread where
  | shell
  | other
  deriving DecidableEq

instance : Fintype KeyThread :=
  ⟨{.shell, .other}, fun thread => by cases thread <;> decide⟩

/-- A call that overlaps another one: the first key is lost, and the release of
the first call is a report with the key of the second. -/
def overlapping : List (Label KeyThread) :=
  [.call .shell 0x50, .moves .shell, .moves .shell, .call .other 0x66,
    .moves .other, .moves .shell, .moves .shell, .moves .other,
    .returns .shell 0x50, .moves .other, .moves .other, .returns .other 0x66]

section Serial

variable {Thread : Type}

/-- A call is made only when no other is under way. -/
def OneAtATime (s : KeySystem Thread) : Label Thread → Prop
  | .call _ _ => ∀ thread, s.senders thread = .idle
  | .moves _ | .returns _ _ => True

instance [Fintype Thread] :
    ∀ (s : KeySystem Thread) label, Decidable (OneAtATime s label)
  | _, .call _ _ => Fintype.decidableForallFintype
  | _, .moves _ => isTrue trivial
  | _, .returns _ _ => isTrue trivial

/-- A call of `do_send_key` that is not interrupted. -/
def SendKeyStep (sent : List ReportVal) (key : UInt8)
    (after : List ReportVal) : Prop :=
  after = sent ++ notified (doSendKey key clearedVal).1

/-- The call with which a step returns. -/
def Label.returned : Label Thread → List UInt8
  | .returns _ key => [key]
  | .call _ _ | .moves _ => []

/-- How far a call has come since the reports `before`. -/
def Under (before : List ReportVal) (reportVal : ReportVal)
    (sent : List ReportVal) : SenderPc → Prop
  | .idle => False
  | .called _ => sent = before
  | .cleared _ => sent = before ∧ reportVal = clearedVal
  | .stored key => sent = before ∧ reportVal = pressedVal key
  | .pressed key => sent = before ++ [pressedVal key]
  | .clearedAgain key =>
      sent = before ++ [pressedVal key] ∧ reportVal = clearedVal

/-- No call is under way, or one. -/
def Related (s : KeySystem Thread) (before : List ReportVal) : Prop :=
  ((∀ thread, s.senders thread = .idle) ∧ s.sent = before) ∨
    ∃ thread, (∀ other, other ≠ thread → s.senders other = .idle) ∧
      Under before s.reportVal s.sent (s.senders thread)

variable [DecidableEq Thread]

/-- The one call that is under way. -/
theorem Related.active {s : KeySystem Thread} {before : List ReportVal}
    (related : Related s before) {thread : Thread} {pc : SenderPc}
    (stands : s.senders thread = pc) (busy : pc ≠ .idle) :
    (∀ other, other ≠ thread → s.senders other = .idle) ∧
      Under before s.reportVal s.sent pc := by
  subst stands
  rcases related with ⟨idle, -⟩ | ⟨active, others, under⟩
  · exact (busy (idle thread)).elim
  · have same : thread = active := by
      by_contra apart
      exact busy (others thread apart)
    subst same
    exact ⟨others, under⟩

theorem related_update {senders : Thread → SenderPc} {thread : Thread}
    {before sent : List ReportVal} {reportVal : ReportVal} {pc : SenderPc}
    (others : ∀ other, other ≠ thread → senders other = .idle)
    (under : Under before reportVal sent pc) :
    Related ⟨reportVal, Function.update senders thread pc, sent⟩ before := by
  refine .inr ⟨thread, fun other apart => ?_, ?_⟩
  · exact (Function.update_of_ne apart pc senders).trans (others other apart)
  · dsimp only
    rw [Function.update_self]
    exact under

/-- Calls that do not overlap are calls that are not interrupted. -/
theorem serial_simulates :
    Simulates (Restrict Step OneAtATime) SendKeyStep Label.returned
      (@Related Thread) := by
  rintro s label s' before related ⟨taken, alone⟩
  obtain ⟨thread, pc, senders, effect⟩ := step_effect taken
  rcases s' with ⟨reportVal, senders', sent⟩
  dsimp only at senders effect
  subst senders
  cases effect with
  | call key idle =>
      refine ⟨before, .nil _, related_update (fun other _ => alone other) ?_⟩
      rcases related with ⟨-, same⟩ | ⟨active, -, under⟩
      · exact same
      · rw [alone active] at under
        exact under.elim
  | clears key called =>
      obtain ⟨others, under⟩ := related.active called nofun
      exact ⟨before, .nil _, related_update others ⟨under, rfl⟩⟩
  | stores key cleared =>
      obtain ⟨others, under⟩ := related.active cleared nofun
      obtain ⟨same, clear⟩ := under
      rw [clear]
      exact ⟨before, .nil _, related_update others ⟨same, rfl⟩⟩
  | presses key stored =>
      obtain ⟨others, under⟩ := related.active stored nofun
      obtain ⟨same, holds⟩ := under
      rw [same, holds]
      exact ⟨before, .nil _, related_update others rfl⟩
  | clearsAgain key pressed =>
      obtain ⟨others, under⟩ := related.active pressed nofun
      exact ⟨before, .nil _, related_update others ⟨under, rfl⟩⟩
  | returns key cleared =>
      obtain ⟨others, under⟩ := related.active cleared nofun
      obtain ⟨same, clear⟩ := under
      rw [same, clear]
      refine ⟨before ++ notified (doSendKey key clearedVal).1,
        path_singleton_iff.mpr rfl, .inl ⟨fun other => ?_, ?_⟩⟩
      · by_cases own : other = thread
        · rw [own]
          exact Function.update_self ..
        · exact (Function.update_of_ne own _ _).trans (others other own)
      · exact List.append_assoc ..

/-- What uninterrupted calls have sent. -/
theorem sent_of_path {keys : List UInt8} {first last : List ReportVal}
    (path : Path SendKeyStep first keys last) :
    last = first ++
      keys.flatMap fun key => notified (doSendKey key clearedVal).1 := by
  induction path with
  | nil => exact (List.append_nil _).symm
  | cons head _ ih =>
      rw [ih, show _ = _ from head, List.flatMap_cons, List.append_assoc]

end Serial

/-- Two calls, one after the other. -/
def oneAfterAnother : List (Label KeyThread) :=
  .call .shell 0x50 :: List.replicate 4 (.moves .shell) ++
    [.returns .shell 0x50] ++
    .call .other 0x66 :: List.replicate 4 (.moves .other) ++
    [.returns .other 0x66]

end KeySenders

end SzpiSta
