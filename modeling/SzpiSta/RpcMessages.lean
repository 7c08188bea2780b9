import SzpiSta.RpcSend

/-!
# The messages of the device

`build_action_hello` and `build_status_ble_ready` of rpc_send.c.  Whatever the
size of the buffer, a message is refused or whole, and a router with the same
routes takes it for none of its commands.
-/

namespace SzpiSta

namespace RpcSend

open CStrings JsonText JsonLibrary RpcRoute

theorem nothing_noNul : (0 : UInt8) ∉ [] := List.not_mem_nil

/-- A message with one parameter.  `buf` tells whether the pointer is valid. -/
def buildMessage (func k v : CText) (library : Library) (buf : Bool)
    (bufLen : Int32) : Int × CText :=
  if buf = false ∨ bufLen = 0 then (-1, ⟨[], nothing_noNul⟩)
  else
    let (ret, text) := payloadToJosnStr library (built func [(k, v)]) bufLen
    if ret < 0 then (-1, text) else (ret, text)

def helloFunc : CText := ⟨cString "hello", by decide⟩
def helloKey : CText := ⟨cString "mac", by decide⟩
def helloValue : CText := ⟨cString "11:22:33:44:55:66", by decide⟩

def buildActionHello : Library → Bool → Int32 → Int × CText :=
  buildMessage helloFunc helloKey helloValue

def statusFunc : CText := ⟨cString "status", by decide⟩
def statusKey : CText := ⟨cString "state", by decide⟩
def statusValue : CText := ⟨cString "ble_ready", by decide⟩

def buildStatusBleReady : Library → Bool → Int32 → Int × CText :=
  buildMessage statusFunc statusKey statusValue

/-- A message is whole: its length is returned, it is the object of the payload,
and the router reads that back, calls nothing and compares no null pointer. -/
structure Harmless (library : Library) (func k v : CText)
    (message : Int × CText) : Prop where
  length : message.1 = message.2.bytes.length
  whole : message.2.bytes = (payloadJson func [(k, v)]).render
  readsBack : ReadsBack library (built func [(k, v)]) message.2
  silent : (rpcExecute library message.2).advCalls = []
  safe : (rpcExecute library message.2).nullPassed = false

section Messages

variable {library : Library} {func k v : CText} {buf : Bool} {bufLen : Int32}

/-- A message that is built has its length as the value, is the object of the
payload, and is read back by the router. -/
theorem buildMessage_cases (documented : library.Documented)
    (plainFunc : PlainText func.bytes) (plainKey : PlainText k.bytes)
    (plainValue : PlainText v.bytes) :
    (buildMessage func k v library buf bufLen).1 = -1 ∨
      ((buildMessage func k v library buf bufLen).1 =
          (buildMessage func k v library buf bufLen).2.bytes.length ∧
        (buildMessage func k v library buf bufLen).2.bytes =
          (payloadJson func [(k, v)]).render ∧
        ReadsBack library (built func [(k, v)])
          (buildMessage func k v library buf bufLen).2) := by
  unfold buildMessage
  split
  case isTrue => exact .inl rfl
  case isFalse =>
  dsimp only
  split
  case isTrue => exact .inl rfl
  case isFalse fits =>
  have plain : ∀ pair ∈ [(k, v)],
      PlainText pair.1.bytes ∧ PlainText pair.2.bytes := by
    intro pair member
    obtain rfl := List.mem_singleton.mp member
    exact ⟨plainKey, plainValue⟩
  obtain ⟨text, plainJson⟩ := sent_text documented plainFunc plain
    (Int.not_lt.mp fits)
  refine .inr ⟨?_, text, readsBack_of_small documented text plainJson ?_⟩
  · unfold payloadToJosnStr at fits ⊢
    dsimp only at fits ⊢
    split at fits
    · exact (fits (show (-1 : Int) < 0 by decide)).elim
    · rename_i encoded
      rw [if_neg encoded]
  · rw [numParas_built]
    exact (show 1 ≤ 5 by decide)

/-- What the router makes of it. -/
theorem buildMessage_harmless (documented : library.Documented)
    (plainFunc : PlainText func.bytes) (plainKey : PlainText k.bytes)
    (plainValue : PlainText v.bytes) (other : func ≠ bleAdvText) :
    (buildMessage func k v library buf bufLen).1 = -1 ∨
      Harmless library func k v (buildMessage func k v library buf bufLen) := by
  refine (buildMessage_cases documented plainFunc plainKey plainValue).imp_right
    ?_
  rintro ⟨length, whole, reads⟩
  have isFunc : (received library
      (buildMessage func k v library buf bufLen).2).func ≠ some bleAdvText := by
    rw [reads.2, built_eq]
    exact fun same => other (Option.some.inj same)
  obtain ⟨safe, silent⟩ := rpcExecuteReq_other
    (library.objParse rpcReqDescr (buildMessage func k v library buf bufLen).2).1
    isFunc
  exact ⟨length, whole, reads, silent, safe⟩

end Messages

end RpcSend

end SzpiSta
