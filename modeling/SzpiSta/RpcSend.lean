import SzpiSta.RpcRoute

/-!
# Sending a message and reading it back

The functions of rpc_send.c that build a message and write it as JSON text.  The
sender and rpc_route.c describe the same format, each with a limit of its own for
the parameters.  What the sender writes is read back by the router exactly as
long as it stays within the router's limit.
-/

namespace SzpiSta

namespace RpcSend

open CStrings JsonText JsonLibrary RpcRoute

def maxParasCount : Nat := 10

structure ParaItem where
  k : Option CText
  v : Option CText

/-- `struct msg_payload`, with the elements of `paras` that are in use. -/
structure MsgPayload where
  func : Option CText
  paras : List ParaItem

def MsgPayload.numParas (payload : MsgPayload) : Nat := payload.paras.length

def paraItemDescr : List CString := [cString "k", cString "v"]

def msgPayloadDescr : List JsonObjDescr :=
  [⟨cString "func", .tokString⟩,
    ⟨cString "paras", .objArray maxParasCount paraItemDescr⟩]

/-- The fields of `struct para_item` in the order of `para_item_descr`. -/
def ParaItem.element (item : ParaItem) : Element := [item.k, item.v]

/-- The fields of `struct msg_payload` in the order of `msg_payload_descr`. -/
def MsgPayload.fields (payload : MsgPayload) : List FieldValue :=
  [.string payload.func, .objArray (payload.paras.map ParaItem.element)]

def payloadParasAdd (k v : Option CText) (payload : MsgPayload) :
    Int × MsgPayload :=
  if maxParasCount ≤ payload.numParas then (-1, payload)
  else (0, { payload with paras := payload.paras ++ [⟨k, v⟩] })

/-- The return code and the string in the buffer. -/
def payloadToJosnStr (library : Library) (payload : MsgPayload)
    (bufLen : Int32) : Int × CText :=
  let (ret, buf) := library.encodeBuf msgPayloadDescr payload.fields
    (bufLen - 1).toUInt32
  if ret < 0 then (-1, buf) else (buf.bytes.length, buf)

/-- The calls of `payload_paras_add` one after another. -/
def addAll (pairs : List (CText × CText)) (payload : MsgPayload) : MsgPayload :=
  pairs.foldl
    (fun payload pair => (payloadParasAdd (some pair.1) (some pair.2) payload).2)
    payload

def built (func : CText) (pairs : List (CText × CText)) : MsgPayload :=
  addAll pairs ⟨some func, []⟩

section Build

def itemOf (pair : CText × CText) : ParaItem := ⟨some pair.1, some pair.2⟩

/-- Every call adds its pair as long as there is room. -/
theorem addAll_eq (pairs : List (CText × CText)) (payload : MsgPayload) :
    addAll pairs payload =
      { payload with
        paras := payload.paras ++
          (pairs.take (maxParasCount - payload.numParas)).map itemOf } := by
  induction pairs generalizing payload with
  | nil => simp [addAll]
  | cons pair pairs ih =>
      have step : addAll (pair :: pairs) payload = addAll pairs
          (payloadParasAdd (some pair.1) (some pair.2) payload).2 := rfl
      rw [step, ih, payloadParasAdd]
      by_cases full : maxParasCount ≤ payload.numParas
      · rw [if_pos full]
        simp [Nat.sub_eq_zero_of_le full]
      · obtain ⟨room, more⟩ : ∃ room,
            maxParasCount - payload.numParas = room + 1 :=
          ⟨maxParasCount - payload.numParas - 1, by omega⟩
        have less : maxParasCount - (payload.numParas + 1) = room := by omega
        rw [if_neg full]
        simp only [MsgPayload.numParas] at more less
        simp [MsgPayload.numParas, more, less, itemOf]

theorem built_eq (func : CText) (pairs : List (CText × CText)) :
    built func pairs =
      ⟨some func, (pairs.take maxParasCount).map itemOf⟩ :=
  addAll_eq pairs _

end Build

section RoundTrip

def pairJson (pair : CText × CText) : Json :=
  .obj [(cString "k", .str pair.1.bytes), (cString "v", .str pair.2.bytes)]

def payloadJson (func : CText) (pairs : List (CText × CText)) : Json :=
  .obj [(cString "func", .str func.bytes),
    (cString "paras", .arr (pairs.map pairJson))]

theorem mapM_some {α β γ : Type} (f : β → Option γ) (g : α → β) (h : α → γ)
    (same : ∀ a, f (g a) = some (h a)) (as : List α) :
    (as.map g).mapM f = some (as.map h) := by
  have pointwise : (fun a => f (g a)) = fun a => pure (h a) := funext same
  rw [List.mapM_map]
  change as.mapM (fun a => f (g a)) = _
  rw [pointwise, List.mapM_pure]
  rfl

/-- What the sender's descriptors make of a payload. -/
theorem describe_payload (func : CText) (pairs : List (CText × CText)) :
    describe msgPayloadDescr
        (MsgPayload.fields ⟨some func, pairs.map itemOf⟩) =
      some (payloadJson func pairs) := by
  have one (pair : CText × CText) :
      (describeElement paraItemDescr (itemOf pair).element).map Json.obj =
        some (pairJson pair) := rfl
  have elements := mapM_some
    (fun elem => (describeElement paraItemDescr elem).map Json.obj)
    (fun pair => (itemOf pair).element) pairJson one pairs
  have items : describeField (.objArray maxParasCount paraItemDescr)
      (.objArray ((pairs.map itemOf).map ParaItem.element)) =
      some (.arr (pairs.map pairJson)) := by
    rw [List.map_map]
    simp only [describeField]
    exact congrArg (· >>= _) elements
  simp only [describe, describeFields, msgPayloadDescr, MsgPayload.fields, items]
  rfl

def elementOf (pair : CText × CText) : Element := [some pair.1, some pair.2]

theorem decodeString_text (text : CText) :
    decodeString (.str text.bytes) = some text :=
  dif_pos text.noNul

theorem decode_pair (pair : CText × CText) :
    decodeElement paramDescr (pairJson pair) = some (elementOf pair) := by
  have k : List.lookup (cString "k")
      [(cString "k", Json.str pair.1.bytes), (cString "v", .str pair.2.bytes)] =
      some (.str pair.1.bytes) := rfl
  have v : List.lookup (cString "v")
      [(cString "k", Json.str pair.1.bytes), (cString "v", .str pair.2.bytes)] =
      some (.str pair.2.bytes) := rfl
  simp [decodeElement, paramDescr, pairJson, k, v, decodeString_text, elementOf]

/-- What the router's descriptors make of the object: it is refused beyond the
router's limit. -/
theorem decode_payload (func : CText) (pairs : List (CText × CText)) :
    decode rpcReqDescr (payloadJson func pairs) =
      if pairs.length ≤ maxParas then
        some [.string (some func), .objArray (pairs.map elementOf)]
      else none := by
  have funcField : List.lookup (cString "func")
      [(cString "func", Json.str func.bytes),
        (cString "paras", .arr (pairs.map pairJson))] =
      some (.str func.bytes) := rfl
  have parasField : List.lookup (cString "paras")
      [(cString "func", Json.str func.bytes),
        (cString "paras", .arr (pairs.map pairJson))] =
      some (.arr (pairs.map pairJson)) := rfl
  have elements := mapM_some (decodeElement paramDescr) pairJson elementOf
    decode_pair pairs
  by_cases within : pairs.length ≤ maxParas <;>
    simp [decode, rpcReqDescr, payloadJson, funcField, parasField, decodeField,
      decodeString_text, elements, within]

theorem pairs_plain {pairs : List (CText × CText)}
    (plain : ∀ pair ∈ pairs,
      PlainText pair.1.bytes ∧ PlainText pair.2.bytes) :
    PlainItems (pairs.map pairJson) := by
  induction pairs with
  | nil => trivial
  | cons pair pairs ih =>
      obtain ⟨plainKey, plainValue⟩ := plain pair List.mem_cons_self
      refine ⟨?_, ih fun other member => plain other (.tail _ member)⟩
      exact ⟨by decide, plainKey, by decide, plainValue, trivial⟩

theorem payloadJson_plain {func : CText} {pairs : List (CText × CText)}
    (plainFunc : PlainText func.bytes)
    (plain : ∀ pair ∈ pairs,
      PlainText pair.1.bytes ∧ PlainText pair.2.bytes) :
    (payloadJson func pairs).Plain :=
  ⟨by decide, plainFunc, by decide, pairs_plain plain, trivial⟩

/-- A non-negative length comes with the whole text. -/
theorem payloadToJosnStr_text {library : Library} {payload : MsgPayload}
    {json : Json} {bufLen : Int32} (documented : library.Documented)
    (described : describe msgPayloadDescr payload.fields = some json)
    (plain : json.Plain)
    (fits : 0 ≤ (payloadToJosnStr library payload bufLen).1) :
    (payloadToJosnStr library payload bufLen).2.bytes = json.render := by
  have text := documented.encodes msgPayloadDescr payload.fields
    (bufLen - 1).toUInt32 json described plain
  unfold payloadToJosnStr at fits ⊢
  dsimp only at fits ⊢
  by_cases failed : (library.encodeBuf msgPayloadDescr payload.fields
      (bufLen - 1).toUInt32).1 < 0
  · rw [if_pos failed] at fits
    cases fits
  · rw [if_neg failed]
    exact text (Int.not_lt.mp failed)

/-- The router accepts the text and finds the function and the pairs of the
payload, in their order. -/
def ReadsBack (library : Library) (payload : MsgPayload) (text : CText) :
    Prop :=
  0 ≤ (library.objParse rpcReqDescr text).1 ∧
    received library text =
      ⟨payload.func, payload.paras.map fun item => ⟨item.k, item.v⟩⟩

/-- The payload is sent as text that is its object. -/
theorem sent_text {library : Library} {func : CText}
    {pairs : List (CText × CText)} {bufLen : Int32}
    (documented : library.Documented) (plainFunc : PlainText func.bytes)
    (plain : ∀ pair ∈ pairs, PlainText pair.1.bytes ∧ PlainText pair.2.bytes)
    (fits : 0 ≤ (payloadToJosnStr library (built func pairs) bufLen).1) :
    (payloadToJosnStr library (built func pairs) bufLen).2.bytes =
        (payloadJson func (pairs.take maxParasCount)).render ∧
      (payloadJson func (pairs.take maxParasCount)).Plain := by
  have plainJson : (payloadJson func (pairs.take maxParasCount)).Plain :=
    payloadJson_plain plainFunc fun pair member =>
      plain pair (List.mem_of_mem_take member)
  rw [built_eq] at fits ⊢
  exact ⟨payloadToJosnStr_text documented (describe_payload func _) plainJson
    fits, plainJson⟩

theorem numParas_built (func : CText) (pairs : List (CText × CText)) :
    (built func pairs).numParas = (pairs.take maxParasCount).length := by
  rw [built_eq, MsgPayload.numParas, List.length_map]

/-- Beyond the router's limit the text is refused. -/
theorem refused_of_large {library : Library} {func : CText}
    {pairs : List (CText × CText)} {text : CText}
    (documented : library.Documented)
    (sent : text.bytes =
      (payloadJson func (pairs.take maxParasCount)).render)
    (plainJson : (payloadJson func (pairs.take maxParasCount)).Plain)
    (large : ¬ (built func pairs).numParas ≤ maxParas) :
    ¬ ReadsBack library (built func pairs) text := by
  intro readsBack
  have decoded := decode_payload func (pairs.take maxParasCount)
  rw [numParas_built] at large
  rw [if_neg large] at decoded
  have refused := documented.refuses rpcReqDescr text _ sent plainJson decoded
  exact Int.not_lt.mpr readsBack.1 refused

theorem readsBack_of_small {library : Library} {func : CText}
    {pairs : List (CText × CText)} {text : CText}
    (documented : library.Documented)
    (sent : text.bytes =
      (payloadJson func (pairs.take maxParasCount)).render)
    (plainJson : (payloadJson func (pairs.take maxParasCount)).Plain)
    (small : (built func pairs).numParas ≤ maxParas) :
    ReadsBack library (built func pairs) text := by
  have decoded := decode_payload func (pairs.take maxParasCount)
  rw [numParas_built] at small
  rw [if_pos small] at decoded
  obtain ⟨accepted, fields⟩ :=
    documented.parses rpcReqDescr text _ _ sent plainJson decoded
  refine ⟨accepted, ?_⟩
  rw [received, fields, built_eq]
  simp only [RpcFunc.ofFields, List.map_map]
  rfl

end RoundTrip

/-- For every payload and every buffer that is large enough: the message is read
back exactly if it has no more parameters than the router has room for. -/
theorem message_reads_back_iff {library : Library} {func : CText}
    {pairs : List (CText × CText)} {bufLen : Int32}
    (documented : library.Documented) (plainFunc : PlainText func.bytes)
    (plain : ∀ pair ∈ pairs, PlainText pair.1.bytes ∧ PlainText pair.2.bytes)
    (fits : 0 ≤ (payloadToJosnStr library (built func pairs) bufLen).1) :
    ReadsBack library (built func pairs)
        (payloadToJosnStr library (built func pairs) bufLen).2 ↔
      (built func pairs).numParas ≤ maxParas := by
  obtain ⟨sent, plainJson⟩ := sent_text documented plainFunc plain fits
  constructor
  · intro readsBack
    by_contra large
    exact refused_of_large documented sent plainJson large readsBack
  · exact readsBack_of_small documented sent plainJson

/-- Some key, and some value. -/
def sampleText : CText := ⟨cString "x", by decide⟩

theorem small_message_reads_back :
    ReadsBack plainLibrary (built sampleText [(sampleText, sampleText)])
      (payloadToJosnStr plainLibrary
        (built sampleText [(sampleText, sampleText)]) 128).2 := by
  refine (message_reads_back_iff plainLibrary_documented (by decide) ?_
    (by decide)).mpr (by decide)
  decide

def sixPairs : List (CText × CText) :=
  List.replicate 6 (sampleText, sampleText)

/-- A message with six parameters is sent, and refused. -/
theorem large_message_is_refused :
    0 ≤ (payloadToJosnStr plainLibrary (built sampleText sixPairs) 256).1 ∧
    ¬ ReadsBack plainLibrary (built sampleText sixPairs)
      (payloadToJosnStr plainLibrary (built sampleText sixPairs) 256).2 := by
  have fits :
      0 ≤ (payloadToJosnStr plainLibrary (built sampleText sixPairs) 256).1 := by
    decide +kernel
  obtain ⟨sent, plainJson⟩ :=
    sent_text plainLibrary_documented (by decide) (by decide) fits
  exact ⟨fits, refused_of_large plainLibrary_documented sent plainJson
    (by decide)⟩

end RpcSend

end SzpiSta
