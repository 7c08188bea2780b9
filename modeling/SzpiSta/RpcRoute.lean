import SzpiSta.FileCalls
import SzpiSta.JsonLibrary

/-!
# Routing a request

The functions of rpc_route.c that take a received message apart and call the
handler of its function.  A member that the message lacks is a NULL pointer.  The
lookup of a parameter compares every name up to the one it looks for, so it is
safe exactly if all of them are there.
-/

namespace SzpiSta

namespace RpcRoute

open CStrings JsonText JsonLibrary

def maxParas : Nat := 5

structure Parameter where
  k : Option CText
  v : Option CText
  deriving DecidableEq

/-- `struct rpc_func`, with the elements of `paras` that are in use. -/
structure RpcFunc where
  func : Option CText
  paras : List Parameter
  deriving DecidableEq

def paramDescr : List CString := [cString "k", cString "v"]

def rpcReqDescr : List JsonObjDescr :=
  [⟨cString "func", .tokString⟩,
    ⟨cString "paras", .objArray maxParas paramDescr⟩]

/-- The fields of `struct parameter` in the order of `param_descr`. -/
def Parameter.ofElement : Element → Parameter
  | [k, v] => ⟨k, v⟩
  | _ => ⟨none, none⟩

/-- The fields of `struct rpc_func` in the order of `rpc_req_descr`. -/
def RpcFunc.ofFields : List FieldValue → RpcFunc
  | [.string func, .objArray elems] => ⟨func, elems.map Parameter.ofElement⟩
  | _ => ⟨none, []⟩

inductive AdvCall where
  | tryAdvertisingStart (isWakeup : Bool) (timeS : Int32)
  | advertisingStop
  deriving DecidableEq

/-- What is printed and called. -/
inductive RpcEvent where
  | parseFailed (ret : Int)
  | rpcFunc (func : CText)
  | param (i : Nat) (para : Parameter)
  | missingRequired (key : CText)
  | startBleAdv (duration op mode : CText)
  | stopBleAdv
  | call (call : AdvCall)

/-- What a function has done when it returns, or when it hands NULL to a string
function. -/
structure Outcome where
  events : List RpcEvent
  nullPassed : Bool

def Outcome.after (events : List RpcEvent) (outcome : Outcome) : Outcome :=
  { outcome with events := events ++ outcome.events }

/-- The calls of the advertising functions. -/
def Outcome.advCalls (outcome : Outcome) : List AdvCall :=
  outcome.events.filterMap fun
    | .call call => some call
    | _ => none

/-- A string function was handed NULL. -/
inductive NullPassed where
  | nullPassed

def strcmpPtr : Option CText → Option CText → Except NullPassed Int
  | some s, some t => .ok (strcmp s.bytes t.bytes)
  | _, _ => .error .nullPassed

def getVByK (key : CText) : List Parameter → Except NullPassed (Option CText)
  | [] => .ok none
  | para :: paras => do
      let order ← strcmpPtr para.k (some key)
      if order = 0 then return para.v else getVByK key paras

def debugPrintParams (paras : List Parameter) : List RpcEvent :=
  paras.mapIdx .param

/-- `GET_PARAM_REQUIRED`, and the rest of the function with its variable. -/
def getParamRequired (paras : List Parameter) (key : CText)
    (rest : CText → Outcome) : Outcome :=
  match getVByK key paras with
  | .error _ => ⟨[], true⟩
  | .ok none => ⟨[.missingRequired key], false⟩
  | .ok (some value) => rest value

def opKey : CText := ⟨cString "op", by decide⟩

def durationKey : CText := ⟨cString "duration", by decide⟩

def modeKey : CText := ⟨cString "mode", by decide⟩

def startText : CText := ⟨cString "start", by decide⟩

def stopText : CText := ⟨cString "stop", by decide⟩

def wakeupText : CText := ⟨cString "wakeup", by decide⟩

def funcBleAdv (paras : List Parameter) : Outcome :=
  Outcome.after (debugPrintParams paras) <|
    getParamRequired paras opKey fun opStr =>
      if strncmp opStr.bytes startText.bytes 5 = 0 then
        getParamRequired paras durationKey fun durationStr =>
          getParamRequired paras modeKey fun modeStr =>
            let isWakeup := strncmp modeStr.bytes wakeupText.bytes 6 = 0
            ⟨[.startBleAdv durationStr opStr modeStr,
              .call (.tryAdvertisingStart isWakeup (atoi durationStr.bytes))],
              false⟩
      else if strncmp opStr.bytes stopText.bytes 5 = 0 then
        ⟨[.stopBleAdv, .call .advertisingStop], false⟩
      else ⟨[], false⟩

/-- `struct rpc_route`. -/
structure Route where
  funcName : CText
  handler : List Parameter → Outcome

def bleAdvText : CText := ⟨cString "ble_adv", by decide⟩

def routes : List Route := [⟨bleAdvText, funcBleAdv⟩]

def callRoute (func : CText) (paras : List Parameter) : List Route → Outcome
  | [] => ⟨[], false⟩
  | route :: routes =>
      if strcmp func.bytes route.funcName.bytes = 0 then route.handler paras
      else callRoute func paras routes

/-- `rpc_execute` from the return of `json_obj_parse` on. -/
def rpcExecuteReq (ret : Int) (req : RpcFunc) : Outcome :=
  match req.func with
  | none => ⟨[.parseFailed ret], false⟩
  | some func =>
      if ret < 0 then ⟨[.parseFailed ret], false⟩
      else Outcome.after [.rpcFunc func] (callRoute func req.paras routes)

def rpcExecute (library : Library) (jsonStr : CText) : Outcome :=
  let (ret, fields) := library.objParse rpcReqDescr jsonStr
  rpcExecuteReq ret (RpcFunc.ofFields fields)

section Lookup

variable {key : CText} {paras : List Parameter}

/-- Up to the first element with this name, all have a name. -/
def NamedUpTo (key : CText) : List Parameter → Prop
  | [] => True
  | para :: paras =>
      para.k = some key ∨ (para.k ≠ none ∧ NamedUpTo key paras)

/-- The value of the first element with this name. -/
def firstValue (key : CText) : List Parameter → Option CText
  | [] => none
  | para :: paras =>
      if para.k = some key then para.v else firstValue key paras

theorem getVByK_cons (k : CText) (v : Option CText) (paras : List Parameter) :
    getVByK key (⟨some k, v⟩ :: paras) =
      if k = key then .ok v else getVByK key paras := by
  have equal : strcmp k.bytes key.bytes = 0 ↔ k = key := by
    rw [strcmp_eq_zero_iff k.noNul key.noNul, CText.mk.injEq]
  by_cases same : k = key
  · rw [if_pos same]
    exact if_pos (equal.mpr same)
  · rw [if_neg same]
    exact if_neg fun zero => same (equal.mp zero)

/-- A lookup among names finds the first. -/
theorem getVByK_named (named : NamedUpTo key paras) :
    getVByK key paras = .ok (firstValue key paras) := by
  induction paras with
  | nil => rfl
  | cons para paras ih =>
      rcases para with ⟨_ | k, v⟩
      · rcases named with found | ⟨named, -⟩
        · cases found
        · exact (named rfl).elim
      · rw [getVByK_cons]
        by_cases same : k = key
        · simp [firstValue, same]
        · have rest : NamedUpTo key paras := by
            rcases named with found | ⟨-, rest⟩
            · exact (same (Option.some.inj found)).elim
            · exact rest
          simp [firstValue, same, ih rest]

/-- A lookup that comes to an element without a name hands it to `strcmp`. -/
theorem getVByK_unnamed (unnamed : ¬ NamedUpTo key paras) :
    getVByK key paras = .error .nullPassed := by
  induction paras with
  | nil => exact (unnamed trivial).elim
  | cons para paras ih =>
      rcases para with ⟨_ | k, v⟩
      · rfl
      · have other : k ≠ key := by
          rintro rfl
          exact unnamed (.inl rfl)
        rw [getVByK_cons, if_neg other]
        exact ih fun rest => unnamed (.inr ⟨nofun, rest⟩)

theorem getParamRequired_unnamed (unnamed : ¬ NamedUpTo key paras)
    (rest : CText → Outcome) :
    getParamRequired paras key rest = ⟨[], true⟩ := by
  rw [getParamRequired, getVByK_unnamed unnamed]

theorem getParamRequired_missing (named : NamedUpTo key paras)
    (missing : firstValue key paras = none) (rest : CText → Outcome) :
    getParamRequired paras key rest = ⟨[.missingRequired key], false⟩ := by
  rw [getParamRequired, getVByK_named named, missing]

theorem getParamRequired_found {value : CText} (named : NamedUpTo key paras)
    (found : firstValue key paras = some value) (rest : CText → Outcome) :
    getParamRequired paras key rest = rest value := by
  rw [getParamRequired, getVByK_named named, found]

end Lookup

section Handler

variable {paras : List Parameter}

@[simp]
theorem Outcome.after_nullPassed (events : List RpcEvent) (outcome : Outcome) :
    (outcome.after events).nullPassed = outcome.nullPassed := rfl

theorem Outcome.advCalls_after {events : List RpcEvent}
    (silent : ∀ event ∈ events, ∀ call, event ≠ .call call)
    (outcome : Outcome) : (outcome.after events).advCalls = outcome.advCalls := by
  have nothing : (Outcome.advCalls ⟨events, false⟩) = [] := by
    rw [Outcome.advCalls, List.filterMap_eq_nil_iff]
    intro event member
    cases event with
    | call call => exact (silent _ member call rfl).elim
    | _ => rfl
  rw [Outcome.advCalls, Outcome.after, List.filterMap_append]
  rw [Outcome.advCalls] at nothing
  rw [nothing]
  rfl

theorem debugPrintParams_silent (paras : List Parameter) :
    ∀ event ∈ debugPrintParams paras, ∀ call, event ≠ .call call := by
  rintro event member call rfl
  obtain ⟨i, bound, same⟩ := List.mem_mapIdx.mp member
  cases same

/-- The first operation begins as the one that starts advertising. -/
def Starts (paras : List Parameter) : Prop :=
  ∃ op, firstValue opKey paras = some op ∧ startText.bytes <+: op.bytes

/-- Each lookup that the handler comes to is among names. -/
structure LookupsNamed (paras : List Parameter) : Prop where
  op : NamedUpTo opKey paras
  duration : Starts paras → NamedUpTo durationKey paras
  mode : Starts paras → firstValue durationKey paras ≠ none →
    NamedUpTo modeKey paras

/-- The handler finds all it needs to start or to stop. -/
def Executable (paras : List Parameter) : Prop :=
  (Starts paras ∧ firstValue durationKey paras ≠ none ∧
      firstValue modeKey paras ≠ none) ∨
    firstValue opKey paras = some stopText

theorem strncmp_start_iff (text : CText) :
    strncmp text.bytes startText.bytes 5 = 0 ↔
      startText.bytes <+: text.bytes :=
  strncmp_length_iff text.noNul startText.noNul

theorem strncmp_wakeup_iff (text : CText) :
    strncmp text.bytes wakeupText.bytes 6 = 0 ↔
      wakeupText.bytes <+: text.bytes :=
  strncmp_length_iff text.noNul wakeupText.noNul

theorem strncmp_stop_iff (text : CText) :
    strncmp text.bytes stopText.bytes 5 = 0 ↔ text = stopText := by
  rw [strncmp_terminated_iff text.noNul stopText.noNul (by decide)]
  exact (CText.mk.injEq ..).symm ▸ Iff.rfl

theorem stopText_not_start : ¬ startText.bytes <+: stopText.bytes := by decide

/-- What the handler calls, if all its lookups are among names. -/
def calledFor (paras : List Parameter) : List AdvCall :=
  match firstValue opKey paras with
  | none => []
  | some op =>
      if startText.bytes <+: op.bytes then
        match firstValue durationKey paras, firstValue modeKey paras with
        | some duration, some mode =>
            [.tryAdvertisingStart (wakeupText.bytes <+: mode.bytes)
              (atoi duration.bytes)]
        | _, _ => []
      else if op = stopText then [.advertisingStop]
      else []

theorem funcBleAdv_named (named : LookupsNamed paras) :
    (funcBleAdv paras).nullPassed = false ∧
      (funcBleAdv paras).advCalls = calledFor paras := by
  unfold funcBleAdv
  rw [Outcome.after_nullPassed,
    Outcome.advCalls_after (debugPrintParams_silent paras), calledFor]
  cases op : firstValue opKey paras with
  | none =>
      rw [getParamRequired_missing named.op op]
      exact ⟨rfl, rfl⟩
  | some opStr =>
      rw [getParamRequired_found named.op op]
      dsimp only
      by_cases start : startText.bytes <+: opStr.bytes
      · have starts : Starts paras := ⟨opStr, op, start⟩
        rw [if_pos ((strncmp_start_iff opStr).mpr start), if_pos start]
        cases duration : firstValue durationKey paras with
        | none =>
            rw [getParamRequired_missing (named.duration starts) duration]
            exact ⟨rfl, rfl⟩
        | some durationStr =>
            have modeNamed := named.mode starts (by simp [duration])
            rw [getParamRequired_found (named.duration starts) duration]
            cases mode : firstValue modeKey paras with
            | none =>
                rw [getParamRequired_missing modeNamed mode]
                exact ⟨rfl, rfl⟩
            | some modeStr =>
                rw [getParamRequired_found modeNamed mode]
                simp [Outcome.advCalls, strncmp_wakeup_iff]
      · rw [if_neg (mt (strncmp_start_iff opStr).mp start), if_neg start]
        by_cases stop : opStr = stopText
        · rw [if_pos ((strncmp_stop_iff opStr).mpr stop), if_pos stop]
          exact ⟨rfl, rfl⟩
        · rw [if_neg (mt (strncmp_stop_iff opStr).mp stop), if_neg stop]
          exact ⟨rfl, rfl⟩

theorem funcBleAdv_unnamed (unnamed : ¬ LookupsNamed paras) :
    (funcBleAdv paras).nullPassed = true := by
  unfold funcBleAdv
  rw [Outcome.after_nullPassed]
  by_cases opNamed : NamedUpTo opKey paras
  · by_contra notPassed
    refine unnamed ⟨opNamed, fun starts => ?_, fun starts present => ?_⟩
    · by_contra durationUnnamed
      obtain ⟨opStr, op, start⟩ := starts
      rw [getParamRequired_found opNamed op,
        if_pos ((strncmp_start_iff opStr).mpr start),
        getParamRequired_unnamed durationUnnamed] at notPassed
      exact notPassed rfl
    · by_contra modeUnnamed
      obtain ⟨opStr, op, start⟩ := starts
      rw [getParamRequired_found opNamed op,
        if_pos ((strncmp_start_iff opStr).mpr start)] at notPassed
      by_cases durationNamed : NamedUpTo durationKey paras
      · obtain ⟨durationStr, duration⟩ := Option.ne_none_iff_exists'.mp present
        rw [getParamRequired_found durationNamed duration,
          getParamRequired_unnamed modeUnnamed] at notPassed
        exact notPassed rfl
      · rw [getParamRequired_unnamed durationNamed] at notPassed
        exact notPassed rfl
  · rw [getParamRequired_unnamed opNamed]

theorem calledFor_eq_nil_iff : calledFor paras = [] ↔ ¬ Executable paras := by
  unfold calledFor Executable Starts
  cases op : firstValue opKey paras with
  | none => simp
  | some opStr =>
      by_cases start : startText.bytes <+: opStr.bytes
      · have notStop : opStr ≠ stopText := by
          rintro rfl
          exact stopText_not_start start
        cases firstValue durationKey paras <;>
          cases firstValue modeKey paras <;> simp [start, notStop]
      · by_cases stop : opStr = stopText
        · subst stop
          simp [stopText_not_start]
        · simp [start, stop]

end Handler

section Execute

variable {req : RpcFunc}

theorem callRoute_bleAdv (paras : List Parameter) :
    callRoute bleAdvText paras routes = funcBleAdv paras := rfl

theorem callRoute_other {func : CText} (other : func ≠ bleAdvText)
    (paras : List Parameter) : callRoute func paras routes = ⟨[], false⟩ := by
  have differs : ¬ strcmp func.bytes bleAdvText.bytes = 0 := by
    rw [strcmp_eq_zero_iff func.noNul bleAdvText.noNul]
    exact mt (CText.mk.injEq ..).mpr other
  exact if_neg differs

/-- A request for another function, or for none, does nothing. -/
theorem rpcExecuteReq_other (ret : Int) (other : req.func ≠ some bleAdvText) :
    (rpcExecuteReq ret req).nullPassed = false ∧
      (rpcExecuteReq ret req).advCalls = [] := by
  unfold rpcExecuteReq
  cases func : req.func with
  | none => exact ⟨rfl, rfl⟩
  | some name =>
      dsimp only
      split
      · exact ⟨rfl, rfl⟩
      · have differs : name ≠ bleAdvText := by
          rintro rfl
          exact other func
        rw [callRoute_other differs]
        exact ⟨rfl, rfl⟩

theorem rpcExecuteReq_bleAdv {ret : Int} (accepted : 0 ≤ ret)
    (bleAdv : req.func = some bleAdvText) :
    (rpcExecuteReq ret req).nullPassed = (funcBleAdv req.paras).nullPassed ∧
      (rpcExecuteReq ret req).advCalls = (funcBleAdv req.paras).advCalls := by
  have silent : ∀ event ∈ [RpcEvent.rpcFunc bleAdvText],
      ∀ call, event ≠ .call call := by
    intro event member call
    rw [List.mem_singleton.mp member]
    exact nofun
  unfold rpcExecuteReq
  rw [bleAdv]
  dsimp only
  rw [if_neg (Int.not_lt.mpr accepted), callRoute_bleAdv,
    Outcome.advCalls_after silent]
  exact ⟨rfl, rfl⟩

/-- Some element lacks its name or its value, or the function is missing. -/
def RpcFunc.Incomplete (req : RpcFunc) : Prop :=
  req.func = none ∨ ∃ para ∈ req.paras, para.k = none ∨ para.v = none

/-- No string function is handed NULL, and an incomplete request is ignored or
answered as missing a parameter. -/
def HandlesMissing (req : RpcFunc) (outcome : Outcome) : Prop :=
  outcome.nullPassed = false ∧ (req.Incomplete → outcome.advCalls = [])

theorem handlesMissing_iff {ret : Int} (accepted : 0 ≤ ret) :
    HandlesMissing req (rpcExecuteReq ret req) ↔
      (req.func = some bleAdvText → LookupsNamed req.paras ∧
        (req.Incomplete → ¬ Executable req.paras)) := by
  unfold HandlesMissing
  by_cases bleAdv : req.func = some bleAdvText
  · obtain ⟨passed, calls⟩ := rpcExecuteReq_bleAdv accepted bleAdv
    rw [passed, calls]
    by_cases named : LookupsNamed req.paras
    · obtain ⟨safe, called⟩ := funcBleAdv_named named
      simp [safe, called, bleAdv, named, calledFor_eq_nil_iff]
    · simp [funcBleAdv_unnamed named, bleAdv, named]
  · obtain ⟨safe, nothing⟩ := rpcExecuteReq_other ret bleAdv
    simp [safe, nothing, bleAdv]

end Execute

/-- The request that the parser finds in a message. -/
def received (library : Library) (jsonStr : CText) : RpcFunc :=
  RpcFunc.ofFields (library.objParse rpcReqDescr jsonStr).2

/-- For every accepted message: no string function is handed NULL, and an
incomplete request does nothing, exactly if each lookup that the handler comes to
is among names, and no incomplete request has all that the handler needs. -/
theorem missing_members_handled_iff {library : Library} {jsonStr : CText}
    (accepted : 0 ≤ (library.objParse rpcReqDescr jsonStr).1) :
    HandlesMissing (received library jsonStr) (rpcExecute library jsonStr) ↔
      ((received library jsonStr).func = some bleAdvText →
        LookupsNamed (received library jsonStr).paras ∧
          ((received library jsonStr).Incomplete →
            ¬ Executable (received library jsonStr).paras)) :=
  handlesMissing_iff accepted

/-- A message for `ble_adv` with one parameter that has one member. -/
def oneMember (name text : String) : Json :=
  .obj [(cString "func", .str (cString "ble_adv")),
    (cString "paras", .arr [.obj [(cString name, .str (cString text))]])]

/-- A request whose one parameter has no value. -/
def valueMissing : CText := ⟨(oneMember "k" "op").render, by decide⟩

/-- A request whose one parameter has no name. -/
def nameMissing : CText := ⟨(oneMember "v" "start").render, by decide⟩

/-- The missing value is answered. -/
theorem value_missing_is_handled :
    HandlesMissing (received plainLibrary valueMissing)
      (rpcExecute plainLibrary valueMissing) := by
  have request : received plainLibrary valueMissing =
      ⟨some bleAdvText, [⟨some opKey, none⟩]⟩ := by decide
  have notStarts : ¬ Starts [⟨some opKey, none⟩] := by
    rintro ⟨op, found, -⟩
    cases found
  refine (missing_members_handled_iff (by decide)).mpr fun _ => ?_
  rw [request]
  refine ⟨⟨.inl rfl, fun starts => (notStarts starts).elim,
    fun starts => (notStarts starts).elim⟩, fun _ executable => ?_⟩
  rcases executable with ⟨starts, -⟩ | found
  · exact notStarts starts
  · cases found

/-- The missing name is handed to `strcmp`. -/
theorem name_missing_is_compared :
    0 ≤ (plainLibrary.objParse rpcReqDescr nameMissing).1 ∧
      (rpcExecute plainLibrary nameMissing).nullPassed = true ∧
      ¬ HandlesMissing (received plainLibrary nameMissing)
        (rpcExecute plainLibrary nameMissing) := by
  have passed : (rpcExecute plainLibrary nameMissing).nullPassed = true := by
    decide
  refine ⟨by decide, passed, fun handled => ?_⟩
  rw [handled.1] at passed
  cases passed

end RpcRoute

end SzpiSta
