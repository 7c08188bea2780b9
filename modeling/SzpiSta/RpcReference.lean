import SzpiSta.RpcRoute

/-!
# Which requests start or stop advertising?

The intended grammar of a `ble_adv` request, with whole words, against what the
handler compares.  The handler compares "stop" with its terminator, but of an
operation only the first five bytes with "start", and of a mode only the first
six with "wakeup".  So it goes wrong exactly on the words that go on after these.
-/

namespace SzpiSta

namespace RpcRoute

open CStrings JsonText JsonLibrary

/-- What the parameters of a `ble_adv` request ask for. -/
def referenceBleAdv (paras : List Parameter) : List AdvCall :=
  match firstValue opKey paras with
  | none => []
  | some op =>
      if op = startText then
        match firstValue durationKey paras, firstValue modeKey paras with
        | some duration, some mode =>
            [.tryAdvertisingStart (mode = wakeupText) (atoi duration.bytes)]
        | _, _ => []
      else if op = stopText then [.advertisingStop]
      else []

def referenceCalls (req : RpcFunc) : List AdvCall :=
  if req.func = some bleAdvText then referenceBleAdv req.paras else []

/-- The keys and values are all there. -/
def RpcFunc.Complete (req : RpcFunc) : Prop :=
  ∀ para ∈ req.paras, para.k ≠ none ∧ para.v ≠ none

/-- The text begins with the word and goes on. -/
def GoesOn (text word : CText) : Prop :=
  word.bytes <+: text.bytes ∧ text ≠ word

/-- A complete request to start whose operation goes on after "start", or whose
mode goes on after "wakeup". -/
structure NearMiss (paras : List Parameter) : Prop where
  duration : firstValue durationKey paras ≠ none
  mode : firstValue modeKey paras ≠ none
  goesOn :
    (∃ op, firstValue opKey paras = some op ∧ GoesOn op startText) ∨
      (firstValue opKey paras = some startText ∧
        ∃ mode, firstValue modeKey paras = some mode ∧ GoesOn mode wakeupText)

section Reference

variable {paras : List Parameter}

theorem namedUpTo_of_complete (key : CText)
    (complete : ∀ para ∈ paras, para.k ≠ none) : NamedUpTo key paras := by
  induction paras with
  | nil => trivial
  | cons para paras ih =>
      refine .inr ⟨complete para List.mem_cons_self, ih fun other member => ?_⟩
      exact complete other (.tail _ member)

theorem lookupsNamed_of_complete
    (complete : ∀ para ∈ paras, para.k ≠ none) : LookupsNamed paras :=
  ⟨namedUpTo_of_complete _ complete, fun _ => namedUpTo_of_complete _ complete,
    fun _ _ => namedUpTo_of_complete _ complete⟩

theorem isWakeup_eq_iff (mode : CText) :
    (decide (wakeupText.bytes <+: mode.bytes) = decide (mode = wakeupText)) ↔
      ¬ GoesOn mode wakeupText := by
  rw [decide_eq_decide, GoesOn, not_and, not_not]
  constructor
  · exact fun same => same.mp
  · refine fun whole => ⟨whole, ?_⟩
    rintro rfl
    exact List.prefix_rfl

/-- The handler starts for the word "start": it differs from the reference in
the mode only. -/
theorem calledFor_start_iff {duration mode : CText}
    (op : firstValue opKey paras = some startText)
    (hasDuration : firstValue durationKey paras = some duration)
    (hasMode : firstValue modeKey paras = some mode) :
    calledFor paras = referenceBleAdv paras ↔ ¬ GoesOn mode wakeupText := by
  have begins : startText.bytes <+: startText.bytes := List.prefix_rfl
  simp only [calledFor, referenceBleAdv, op, hasDuration, hasMode, if_pos begins,
    if_true, List.cons.injEq, AdvCall.tryAdvertisingStart.injEq, and_true]
  exact isWakeup_eq_iff mode

theorem calledFor_eq_reference_iff :
    calledFor paras = referenceBleAdv paras ↔ ¬ NearMiss paras := by
  cases op : firstValue opKey paras with
  | none =>
      have notNear : ¬ NearMiss paras := by
        rintro ⟨-, -, ⟨opStr, found, -⟩ | ⟨found, -⟩⟩ <;>
          rw [op] at found <;> cases found
      simp [calledFor, referenceBleAdv, op, notNear]
  | some opStr =>
      by_cases begins : startText.bytes <+: opStr.bytes
      case neg =>
        have notStart : opStr ≠ startText := by
          rintro rfl
          exact begins List.prefix_rfl
        have notNear : ¬ NearMiss paras := by
          rintro ⟨-, -, ⟨other, found, goesOn⟩ | ⟨found, -⟩⟩
          · rw [op] at found
            cases found
            exact begins goesOn.1
          · rw [op] at found
            exact notStart (Option.some.inj found)
        simp [calledFor, referenceBleAdv, op, begins, notStart, notNear]
      case pos =>
        have notStop : opStr ≠ stopText := by
          rintro rfl
          exact stopText_not_start begins
        cases duration : firstValue durationKey paras with
        | none =>
            have notNear : ¬ NearMiss paras := fun near =>
              near.duration duration
            simp [calledFor, referenceBleAdv, op, duration, notStop, notNear]
        | some durationStr =>
            cases mode : firstValue modeKey paras with
            | none =>
                have notNear : ¬ NearMiss paras := fun near => near.mode mode
                simp [calledFor, referenceBleAdv, op, mode, notStop, notNear]
            | some modeStr =>
                by_cases whole : opStr = startText
                · subst whole
                  rw [calledFor_start_iff op duration mode]
                  refine not_congr ⟨fun goesOn => ?_, ?_⟩
                  · exact ⟨by simp [duration], by simp [mode],
                      .inr ⟨op, modeStr, mode, goesOn⟩⟩
                  · rintro ⟨-, -, ⟨other, found, goesOn⟩ | ⟨-, other, found, goesOn⟩⟩
                    · rw [op] at found
                      exact (goesOn.2 (Option.some.inj found).symm).elim
                    · rw [mode] at found
                      cases found
                      exact goesOn
                · have near : NearMiss paras :=
                    ⟨by simp [duration], by simp [mode],
                      .inl ⟨opStr, op, begins, whole⟩⟩
                  simp [calledFor, referenceBleAdv, op, duration, mode, begins,
                    whole, notStop, near]

end Reference

/-- For every accepted request whose keys and values are all there: the calls are
the ones of the reference exactly if it is no near miss. -/
theorem calls_follow_reference_iff {library : Library} {jsonStr : CText}
    (accepted : 0 ≤ (library.objParse rpcReqDescr jsonStr).1)
    (complete : (received library jsonStr).Complete) :
    (rpcExecute library jsonStr).advCalls =
        referenceCalls (received library jsonStr) ↔
      ¬ ((received library jsonStr).func = some bleAdvText ∧
        NearMiss (received library jsonStr).paras) := by
  unfold referenceCalls
  by_cases bleAdv : (received library jsonStr).func = some bleAdvText
  · have named := lookupsNamed_of_complete fun para member =>
      (complete para member).1
    have calls := (rpcExecuteReq_bleAdv accepted bleAdv).2
    rw [(funcBleAdv_named named).2] at calls
    rw [if_pos bleAdv]
    simp only [bleAdv, true_and]
    rw [← calledFor_eq_reference_iff, ← calls]
    rfl
  · have calls := (rpcExecuteReq_other
      (library.objParse rpcReqDescr jsonStr).1 bleAdv).2
    rw [if_neg bleAdv]
    simp only [bleAdv, false_and, not_false_eq_true, iff_true]
    exact calls

/-- A message for `ble_adv` with an operation, a duration and a mode. -/
def advMessage (op duration mode : String) : Json :=
  let para (name text : String) : Json :=
    .obj [(cString "k", .str (cString name)), (cString "v", .str (cString text))]
  .obj [(cString "func", .str (cString "ble_adv")),
    (cString "paras",
      .arr [para "op" op, para "duration" duration, para "mode" mode])]

def wakeupMessage : CText :=
  ⟨(advMessage "start" "100" "wakeup").render, by decide⟩

def startleMessage : CText :=
  ⟨(advMessage "startle" "100" "normal").render, by decide⟩

/-- A request to wake up is no near miss. -/
theorem wakeup_message_follows_reference :
    (rpcExecute plainLibrary wakeupMessage).advCalls =
      [.tryAdvertisingStart true 100] ∧
    (rpcExecute plainLibrary wakeupMessage).advCalls =
      referenceCalls (received plainLibrary wakeupMessage) := by
  have request : received plainLibrary wakeupMessage = ⟨some bleAdvText,
      [⟨some opKey, some startText⟩,
        ⟨some durationKey, some ⟨cString "100", by decide⟩⟩,
        ⟨some modeKey, some wakeupText⟩]⟩ := by decide
  have op : firstValue opKey (received plainLibrary wakeupMessage).paras =
      some startText := by rw [request]; decide
  have mode : firstValue modeKey (received plainLibrary wakeupMessage).paras =
      some wakeupText := by rw [request]; decide
  refine ⟨by decide, (calls_follow_reference_iff (by decide) ?_).mpr ?_⟩
  · rw [request]
    unfold RpcFunc.Complete
    decide
  · rintro ⟨-, -, -, ⟨other, found, goesOn⟩ | ⟨-, other, found, goesOn⟩⟩
    · rw [op] at found
      exact goesOn.2 (Option.some.inj found).symm
    · rw [mode] at found
      exact goesOn.2 (Option.some.inj found).symm

/-- The operation "startle" starts advertising. -/
theorem startle_starts :
    0 ≤ (plainLibrary.objParse rpcReqDescr startleMessage).1 ∧
      (received plainLibrary startleMessage).Complete ∧
      (rpcExecute plainLibrary startleMessage).advCalls =
        [.tryAdvertisingStart false 100] ∧
      referenceCalls (received plainLibrary startleMessage) = [] := by
  refine ⟨by decide, ?_, by decide, by decide⟩
  unfold RpcFunc.Complete
  decide

end RpcRoute

end SzpiSta
