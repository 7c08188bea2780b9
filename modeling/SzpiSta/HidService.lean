import SzpiSta.CStrings
import SzpiSta.FileCalls
import SzpiSta.HexText
import SzpiSta.HidItems

/-!
# What the television sees of a key

The attributes of the HID service of ble_rc.c with their read callbacks, and
`do_send_key` with its shell command.  The reports that are sent
have eight bytes, while the description declares six, three arrays of one value
of sixteen bits.  The key is still in the second of them, so a peer that has read
the description piece by piece decodes from the two notifications of a command
exactly the key that was typed, pressed and released.  The pieces are those that
`bt_gatt_attr_read` of the Bluetooth stack is documented to give.
-/

namespace SzpiSta

namespace HidService

open HidItems CStrings

/-- `struct hids_info`. -/
structure HidsInfo where
  bcdHid : UInt16
  bCountryCode : UInt8
  flags : UInt8

/-- `struct hids_report`. -/
structure HidsReport where
  id : UInt8
  type : UInt8

/-- The packed structure in memory. -/
def HidsInfo.bytes (info : HidsInfo) : List UInt8 :=
  [info.bcdHid.toUInt8, (info.bcdHid >>> 8).toUInt8, info.bCountryCode,
    info.flags]

def HidsReport.bytes (report : HidsReport) : List UInt8 :=
  [report.id, report.type]

def hidsInput : UInt8 := 0x01

def info : HidsInfo := ⟨0x0111, 0x00, 0x01⟩

def input : HidsReport := ⟨0x01, hidsInput⟩

def reportMap : List UInt8 :=
  [0x05, 0x01, 0x09, 0x06, 0xa1, 0x01, 0x05, 0x07, 0x09, 0x06, 0xa1, 0x01,
    0x85, 0x01, 0x95, 0x03, 0x75, 0x10, 0x15, 0x00, 0x25, 0xfe, 0x19, 0x00,
    0x29, 0xfe, 0x81, 0x00, 0xc0,
    0x06, 0x00, 0xff, 0x09, 0x00, 0xa1, 0x01,
    0x85, 0x06, 0x75, 0x08, 0x95, 0x78, 0x15, 0x00, 0x25, 0xff, 0x19, 0x00,
    0x29, 0xff, 0x81, 0x00,
    0x85, 0x07, 0x75, 0x08, 0x95, 0x78, 0x15, 0x00, 0x25, 0xff, 0x19, 0x00,
    0x29, 0xff, 0x81, 0x00,
    0x85, 0x08, 0x75, 0x08, 0x95, 0x78, 0x15, 0x00, 0x25, 0xff, 0x19, 0x00,
    0x29, 0xff, 0x81, 0x00, 0xc0, 0xc0]

/-- `bt_gatt_attr_read`: from a length, an offset and a value, what is put into
the buffer, or an error. -/
abbrev GattAttrRead := UInt16 → UInt16 → List UInt8 → Except Int (List UInt8)

section Attributes

variable (btGattAttrRead : GattAttrRead)

def readInfo (len offset : UInt16) : Except Int (List UInt8) :=
  btGattAttrRead len offset info.bytes

def readReportMap (len offset : UInt16) : Except Int (List UInt8) :=
  btGattAttrRead len offset reportMap

def readReport (len offset : UInt16) : Except Int (List UInt8) :=
  btGattAttrRead len offset input.bytes

def readInputReport (len offset : UInt16) : Except Int (List UInt8) :=
  btGattAttrRead len offset []

end Attributes

/-- The stack does what it is documented to do: from an offset inside the value
it reads as many bytes as it is asked for and as there are. -/
structure GattAttrRead.Documented (btGattAttrRead : GattAttrRead) : Prop where
  reads : ∀ (len offset : UInt16) (value : List UInt8),
    offset.toNat ≤ value.length →
    btGattAttrRead len offset value =
      .ok ((value.drop offset.toNat).take len.toNat)

/-- `BT_GATT_ERR(BT_ATT_ERR_INVALID_OFFSET)`. -/
def invalidOffset : Int := -0x07

/-- A stack that refuses the offsets behind the end of a value. -/
def checkedRead : GattAttrRead := fun len offset value =>
  if value.length < offset.toNat then .error invalidOffset
  else .ok ((value.drop offset.toNat).take len.toNat)

theorem checkedRead_documented : checkedRead.Documented where
  reads _ _ _ inside := if_neg (Nat.not_lt.mpr inside)

abbrev ReportVal := Vector UInt8 8

/-- `memset(report_val, 0, sizeof(report_val))`. -/
def clearVal (_ : ReportVal) : ReportVal := Vector.replicate 8 0

/-- `report_val[2] = key`. -/
def setKey (key : UInt8) (reportVal : ReportVal) : ReportVal :=
  reportVal.set 2 key

inductive KeyAction where
  | btGattNotify (reportVal : ReportVal)
  | kMsleep (ms : Nat)
  deriving DecidableEq

/-- What is done, and `report_val` afterwards. -/
def doSendKey (key : UInt8) (reportVal : ReportVal) :
    List KeyAction × ReportVal :=
  let pressedVal := setKey key (clearVal reportVal)
  let releasedVal := clearVal pressedVal
  ([.btGattNotify pressedVal, .kMsleep 50, .btGattNotify releasedVal],
    releasedVal)

/-- `(uint8_t)strtol(text, NULL, 16)`. -/
def keyOf (text : List UInt8) : UInt8 := (strtolHex text).toUInt32.toUInt8

/-- The return code, what is done, and `report_val` afterwards. -/
def cmdSendKey (argv : List (List UInt8)) (reportVal : ReportVal) :
    Int × List KeyAction × ReportVal :=
  match argv with
  | _ :: text :: _ => (0, doSendKey (keyOf text) reportVal)
  | _ => (-eInval, [], reportVal)

/-- What the peer is notified of. -/
def notified (actions : List KeyAction) : List ReportVal :=
  actions.filterMap fun
    | .btGattNotify reportVal => some reportVal
    | .kMsleep _ => none

section Reading

/-- The peer reads a value piece by piece, each from the end of what it has on,
until a piece is shorter than it asked for. -/
def readLong (read : UInt16 → UInt16 → Except Int (List UInt8)) (len : UInt16) :
    Nat → List UInt8 → Option (List UInt8)
  | 0, _ => none
  | fuel + 1, got =>
      match read len (UInt16.ofNat got.length) with
      | .error _ => none
      | .ok piece =>
          if piece.length < len.toNat then some (got ++ piece)
          else readLong read len fuel (got ++ piece)

variable {btGattAttrRead : GattAttrRead} {value : List UInt8} {len : UInt16}

/-- From any point of the value on. -/
theorem readLong_from (documented : btGattAttrRead.Documented)
    {fuel start : Nat} (positive : 0 < len)
    (short : value.length < UInt16.size) (inside : start ≤ value.length)
    (enough : value.length - start < fuel) :
    readLong (fun len offset => btGattAttrRead len offset value) len fuel
      (value.take start) = some value := by
  induction fuel generalizing start with
  | zero => cases enough
  | succ fuel ih =>
      have some_len : 0 < len.toNat := UInt16.lt_iff_toNat_lt.mp positive
      have got : (value.take start).length = start :=
        List.length_take_of_le inside
      have offset : (UInt16.ofNat start).toNat = start :=
        UInt16.toNat_ofNat_of_lt' (Nat.lt_of_le_of_lt inside short)
      have piece : btGattAttrRead len (UInt16.ofNat start) value =
          .ok ((value.drop start).take len.toNat) := by
        have reads := documented.reads len (UInt16.ofNat start) value
        rw [offset] at reads
        exact reads inside
      have joined : value.take start ++ (value.drop start).take len.toNat =
          value.take (start + len.toNat) := List.take_add.symm
      rw [readLong, got, piece]
      dsimp only
      rw [joined, List.length_take, List.length_drop]
      by_cases last : value.length < start + len.toNat
      · rw [if_pos (by omega), List.take_of_length_le (Nat.le_of_lt last)]
      · rw [if_neg (by omega)]
        exact ih (by omega) (by omega)

/-- The pieces make up the value, however long they are. -/
theorem readLong_eq (documented : btGattAttrRead.Documented) {fuel : Nat}
    (positive : 0 < len) (short : value.length < UInt16.size)
    (enough : value.length < fuel) :
    readLong (fun len offset => btGattAttrRead len offset value) len fuel [] =
      some value :=
  readLong_from documented positive short (Nat.zero_le _) enough

end Reading

section Description

/-- An item with one byte of data. -/
def shortItem (type : ItemType) (tag : BitVec 4) (value : UInt8) : Item :=
  ⟨type, tag, .one value⟩

/-- The end of a collection. -/
def endCollection : Item := ⟨.main, 12, .none⟩

/-- A collection for applications that begins with a page and a usage. -/
def applicationItems (usagePage : ItemData) (usage : UInt8) : List Item :=
  [⟨.global, 0, usagePage⟩, shortItem .local 0 usage, shortItem .main 10 1]

/-- An array over the usages up to `most`, and its declaration. -/
def arrayItems (most : UInt8) : List Item :=
  [shortItem .global 1 0, shortItem .global 2 most, shortItem .local 1 0,
    shortItem .local 2 most, shortItem .main 8 0]

/-- One of the long reports for other data. -/
def vendorItems (reportId : UInt8) : List Item :=
  [shortItem .global 8 reportId, shortItem .global 7 8,
    shortItem .global 9 120] ++ arrayItems 255

/-- The items of the description. -/
def reportItems : List Item :=
  applicationItems (.one 1) 6 ++ applicationItems (.one 7) 6 ++
    [shortItem .global 8 1, shortItem .global 9 3, shortItem .global 7 16] ++
    arrayItems 254 ++ [endCollection] ++
    applicationItems (.two 0 0xff) 0 ++ vendorItems 6 ++ vendorItems 7 ++
    vendorItems 8 ++ [endCollection, endCollection]

theorem encode_reportItems : encode reportItems = reportMap := by decide

/-- The page of the usages of a keyboard. -/
def keyboardPage : Nat := 7

/-- The keys: three values of sixteen bits. -/
def keyField : Field where
  flags := 0
  state :=
    { usagePage := keyboardPage, logicalMin := 0, logicalMax := 254
      reportSize := 16, reportCount := 3, reportId := 1, usageMin := 0
      usageMax := 254 }

/-- The field of one of the long reports. -/
def vendorField (reportId : Nat) : Field where
  flags := 0
  state :=
    { usagePage := 0xff00, logicalMin := 0, logicalMax := 255
      reportSize := 8, reportCount := 120, reportId := reportId, usageMin := 0
      usageMax := 255 }

/-- The fields of the description. -/
def reportFields : List Field :=
  [keyField, vendorField 6, vendorField 7, vendorField 8]

theorem describe_reportMap : describe reportMap = some reportFields := by
  rw [describe, ← encode_reportItems, decode_encode]
  decide

theorem reportMap_length : reportMap.length = 86 := by decide

end Description

section Keys

variable {btGattAttrRead : GattAttrRead} {len : UInt16}

/-- The only field of the report that is notified. -/
theorem fieldsOf_input :
    fieldsOf input.id.toNat reportFields = [keyField] := by decide

/-- The three values of a report, whose last two bytes are not read. -/
theorem keyField_values (a b c d e f g h : UInt8) :
    keyField.values (littleEndian [a, b, c, d, e, f, g, h]) =
      [a.toNat + 256 * b.toNat, c.toNat + 256 * d.toNat,
        e.toNat + 256 * f.toNat] := by
  have range : List.range keyField.state.reportCount = [0, 1, 2] := rfl
  have size : keyField.state.reportSize = 16 := rfl
  have := a.toNat_lt
  have := b.toNat_lt
  have := c.toNat_lt
  have := d.toNat_lt
  have := e.toNat_lt
  have := f.toNat_lt
  simp only [Field.values, range, size, littleEndian, List.map_cons,
    List.map_nil, List.cons.injEq, and_true]
  omega

/-- The key of a value of the array, if it is one of its usages other than 0. -/
def usageOf (value : Nat) : List Usage :=
  if value = 0 ∨ 254 < value then [] else [⟨keyboardPage, value⟩]

theorem keyField_usage (value : Nat) :
    (keyField.usage value).toList.filter (·.id ≠ 0) = usageOf value := by
  unfold usageOf Field.usage
  by_cases zero : value = 0
  · subst zero
    rfl
  by_cases large : 254 < value
  · rw [if_neg, if_pos (.inr large)]
    · rfl
    · rintro ⟨-, -, small⟩
      exact absurd small (Nat.not_le.mpr large)
  · have inside : keyField.isArray = true ∧
        keyField.state.logicalMin ≤ value ∧
          value ≤ keyField.state.logicalMax :=
      ⟨rfl, Nat.zero_le _, Nat.not_lt.mp large⟩
    have usage : keyField.state.usageMin + (value - keyField.state.logicalMin) =
        value := Nat.zero_add _
    have page : keyField.state.usagePage = keyboardPage := rfl
    rw [if_pos inside, if_neg (not_or.mpr ⟨zero, large⟩), usage, page]
    simp [zero]

/-- What a report of eight bytes says is pressed. -/
theorem pressed_eq (a b c d e f g h : UInt8) :
    pressed reportFields input.id.toNat [a, b, c, d, e, f, g, h] =
      usageOf (a.toNat + 256 * b.toNat) ++ usageOf (c.toNat + 256 * d.toNat) ++
        usageOf (e.toNat + 256 * f.toNat) := by
  have single (value : Nat) (values : List Nat) :
      ((value :: values).filterMap keyField.usage).filter (·.id ≠ 0) =
        usageOf value ++
          (values.filterMap keyField.usage).filter (·.id ≠ 0) := by
    rw [← keyField_usage, ← List.filter_append]
    cases used : keyField.usage value <;> simp [used]
  rw [pressed, fieldsOf_input, usages, usages, keyField_values, single, single,
    single]
  simp

/-- A pressed key in the report. -/
theorem pressed_setKey (key : UInt8) (reportVal : ReportVal) :
    pressed reportFields input.id.toNat
        (setKey key (clearVal reportVal)).toList =
      usageOf key.toNat := by
  have bytes : (setKey key (clearVal reportVal)).toList =
      [0, 0, key, 0, 0, 0, 0, 0] := rfl
  rw [bytes, pressed_eq]
  simp [usageOf]

theorem pressed_clearVal (reportVal : ReportVal) :
    pressed reportFields input.id.toNat (clearVal reportVal).toList = [] := by
  have bytes : (clearVal reportVal).toList = [0, 0, 0, 0, 0, 0, 0, 0] := rfl
  rw [bytes, pressed_eq]
  simp [usageOf]

/-- The key that two digits name, with or without the mark in front. -/
theorem keyOf_hexPair (key : UInt8) :
    keyOf (HexText.hexPair key) = key ∧
      keyOf (48 :: 120 :: HexText.hexPair key) = key := by
  have everyKey : ∀ key : Fin 256,
      keyOf (HexText.hexPair (UInt8.ofNat key)) = UInt8.ofNat key ∧
        keyOf (48 :: 120 :: HexText.hexPair (UInt8.ofNat key)) =
          UInt8.ofNat key := by
    decide +kernel
  simpa using everyKey ⟨key.toNat, key.toNat_lt⟩

/-- Every attribute that can be read is read whole. -/
theorem attributes_read (documented : btGattAttrRead.Documented)
    (positive : 0 < len) :
    readLong (readInfo btGattAttrRead) len (2 ^ 16) [] = some info.bytes ∧
      readLong (readReportMap btGattAttrRead) len (2 ^ 16) [] =
        some reportMap ∧
      readLong (readReport btGattAttrRead) len (2 ^ 16) [] =
        some input.bytes ∧
      readLong (readInputReport btGattAttrRead) len (2 ^ 16) [] = some [] := by
  have whole (value : List UInt8) (short : value.length < UInt16.size) :
      readLong (fun len offset => btGattAttrRead len offset value) len (2 ^ 16)
        [] = some value :=
    readLong_eq documented positive short short
  refine ⟨whole _ (by decide), whole _ ?_, whole _ (by decide),
    whole _ (by decide)⟩
  rw [reportMap_length]
  decide

/-- The keys that are seen. -/
theorem usageOf_key (key : UInt8) :
    usageOf key.toNat =
      if key = 0 ∨ key = 255 then [] else [⟨keyboardPage, key.toNat⟩] := by
  have small := key.toNat_lt
  have zero : key = 0 ↔ key.toNat = 0 := UInt8.toNat_inj.symm
  have last : key = 255 ↔ key.toNat = 255 := UInt8.toNat_inj.symm
  have same : (key.toNat = 0 ∨ 254 < key.toNat) ↔ (key = 0 ∨ key = 255) := by
    rw [zero, last]
    omega
  simp only [usageOf, same]

end Keys

/-- A peer that reads the description and the report reference in pieces of any
length decodes from the two notifications of a `send` command the key of its
argument, on the page of the keyboard, and then that no key is pressed; the keys
0 and 255 it does not see at all.  Every key is named by its two digits, with
`0x` in front or not. -/
theorem peer_sees_sent_key (btGattAttrRead : GattAttrRead)
    (documented : btGattAttrRead.Documented) (len : UInt16) (positive : 0 < len)
    (name text : List UInt8) (args : List (List UInt8)) (reportVal : ReportVal) :
    (∃ fields,
        (readLong (readReportMap btGattAttrRead) len (2 ^ 16) []).bind describe =
          some fields ∧
        readLong (readReport btGattAttrRead) len (2 ^ 16) [] =
          some [input.id, hidsInput] ∧
        ((notified (cmdSendKey (name :: text :: args) reportVal).2.1).map
            fun report => pressed fields input.id.toNat report.toList) =
          [if keyOf text = 0 ∨ keyOf text = 255 then []
            else [⟨keyboardPage, (keyOf text).toNat⟩], []]) ∧
      ∀ key, keyOf (HexText.hexPair key) = key ∧
        keyOf (48 :: 120 :: HexText.hexPair key) = key := by
  obtain ⟨-, map, reference, -⟩ := attributes_read documented positive
  refine ⟨⟨reportFields, ?_, reference, ?_⟩, keyOf_hexPair⟩
  · rw [map]
    exact describe_reportMap
  · have sent : notified (cmdSendKey (name :: text :: args) reportVal).2.1 =
        [setKey (keyOf text) (clearVal reportVal),
          clearVal (setKey (keyOf text) (clearVal reportVal))] := rfl
    rw [sent, List.map_cons, List.map_singleton, pressed_setKey,
      pressed_clearVal, usageOf_key]

/-- The power key, read in the smallest pieces that a link allows. -/
theorem peer_sees_power_key :
    ∃ fields,
      (readLong (readReportMap checkedRead) 22 (2 ^ 16) []).bind describe =
        some fields ∧
      ((notified (cmdSendKey [cString "send", cString "0x66"]
          (clearVal (Vector.replicate 8 0))).2.1).map
        fun report => pressed fields input.id.toNat report.toList) =
        [[⟨keyboardPage, 0x66⟩], []] := by
  obtain ⟨⟨fields, described, -, seen⟩, named⟩ :=
    peer_sees_sent_key checkedRead checkedRead_documented 22 (by decide)
      (cString "send") (cString "0x66") [] (clearVal (Vector.replicate 8 0))
  have key : keyOf (cString "0x66") = 0x66 := (named 0x66).2
  rw [key] at seen
  exact ⟨fields, described, seen⟩

end HidService

end SzpiSta
