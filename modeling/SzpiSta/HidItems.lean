import Mathlib.Algebra.Group.Nat.Defs
import Mathlib.Data.List.Basic

/-!
# Descriptions of input reports

A device of the class HID describes its reports by a list of short items, each a
head byte with its data.  Main items declare fields; global and local items set
what the next fields are like.  This file defines the items and their bytes,
reads the fields off a description, and reads the values of a field off a
report.  Items that are written as bytes are read back.
-/

namespace SzpiSta

namespace HidItems

inductive ItemType where
  | main
  | global
  | local
  deriving DecidableEq, Repr

/-- The data of a short item: no byte, one, two or four. -/
inductive ItemData where
  | none
  | one (a : UInt8)
  | two (a b : UInt8)
  | four (a b c d : UInt8)
  deriving DecidableEq, Repr

structure Item where
  type : ItemType
  tag : BitVec 4
  data : ItemData
  deriving DecidableEq, Repr

def ItemType.code : ItemType → Nat
  | .main => 0
  | .global => 1
  | .local => 2

/-- The fourth type is reserved. -/
def ItemType.ofCode : Nat → Option ItemType
  | 0 => some .main
  | 1 => some .global
  | 2 => some .local
  | _ => .none

/-- The two bits that give the number of bytes. -/
def ItemData.code : ItemData → Nat
  | .none => 0
  | .one _ => 1
  | .two _ _ => 2
  | .four _ _ _ _ => 3

def ItemData.bytes : ItemData → List UInt8
  | .none => []
  | .one a => [a]
  | .two a b => [a, b]
  | .four a b c d => [a, b, c, d]

/-- The data that the code announces, and the bytes behind it. -/
def readData : Nat → List UInt8 → Option (ItemData × List UInt8)
  | 0, bytes => some (.none, bytes)
  | 1, a :: bytes => some (.one a, bytes)
  | 2, a :: b :: bytes => some (.two a b, bytes)
  | 3, a :: b :: c :: d :: bytes => some (.four a b c d, bytes)
  | _, _ => .none

/-- The tag is in the upper half, above the type and the code of the data. -/
def Item.head (item : Item) : UInt8 :=
  UInt8.ofNat (16 * item.tag.toNat + 4 * item.type.code + item.data.code)

def Item.encode (item : Item) : List UInt8 := item.head :: item.data.bytes

def encode (items : List Item) : List UInt8 := items.flatMap Item.encode

def readItem : List UInt8 → Option (Item × List UInt8)
  | [] => .none
  | head :: bytes => do
      let type ← ItemType.ofCode (head.toNat / 4 % 4)
      let (data, rest) ← readData (head.toNat % 4) bytes
      return (⟨type, BitVec.ofNat 4 (head.toNat / 16), data⟩, rest)

/-- Item by item; every item takes a byte at least, so the number of bytes is
enough fuel. -/
def readItems : Nat → List UInt8 → Option (List Item)
  | _, [] => some []
  | 0, _ :: _ => .none
  | fuel + 1, head :: bytes => do
      let (item, rest) ← readItem (head :: bytes)
      let items ← readItems fuel rest
      return item :: items

def decode (bytes : List UInt8) : Option (List Item) :=
  readItems bytes.length bytes

section RoundTrip

variable {item : Item} {items : List Item} {bytes rest : List UInt8}

theorem ItemType.code_lt (type : ItemType) : type.code < 3 := by
  cases type <;> decide

theorem ItemData.code_lt (data : ItemData) : data.code < 4 := by
  cases data <;> simp [code]

@[simp]
theorem ItemType.ofCode_code (type : ItemType) :
    ofCode type.code = some type := by
  cases type <;> rfl

@[simp]
theorem readData_bytes (data : ItemData) (rest : List UInt8) :
    readData data.code (data.bytes ++ rest) = some (data, rest) := by
  cases data <;> rfl

theorem Item.head_toNat (item : Item) :
    item.head.toNat =
      16 * item.tag.toNat + 4 * item.type.code + item.data.code := by
  have tag := item.tag.isLt
  have type := item.type.code_lt
  have data := item.data.code_lt
  rw [Item.head, UInt8.toNat_ofNat']
  omega

theorem readItem_encode (item : Item) (rest : List UInt8) :
    readItem (item.encode ++ rest) = some (item, rest) := by
  have type := item.type.code_lt
  have data := item.data.code_lt
  have whole := item.head_toNat
  have typeCode : item.head.toNat / 4 % 4 = item.type.code := by omega
  have dataCode : item.head.toNat % 4 = item.data.code := by omega
  have tagCode : item.head.toNat / 16 = item.tag.toNat := by omega
  have unfolded : readItem (item.encode ++ rest) = (do
      let type ← ItemType.ofCode (item.head.toNat / 4 % 4)
      let (data, rest) ←
        readData (item.head.toNat % 4) (item.data.bytes ++ rest)
      return (⟨type, BitVec.ofNat 4 (item.head.toNat / 16), data⟩, rest)) := rfl
  rw [unfolded, typeCode, dataCode, tagCode, ItemType.ofCode_code,
    readData_bytes]
  simp

theorem Item.encode_length_pos (item : Item) : 0 < item.encode.length :=
  Nat.succ_pos _

theorem readItems_encode (fuel : Nat) (enough : items.length ≤ fuel) :
    readItems fuel (encode items) = some items := by
  induction items generalizing fuel with
  | nil => cases fuel <;> rfl
  | cons item items ih =>
      cases fuel with
      | zero => cases enough
      | succ fuel =>
          have more := ih fuel (Nat.le_of_succ_le_succ enough)
          have head := readItem_encode item (encode items)
          have unfolded : readItems (fuel + 1) (encode (item :: items)) = (do
              let (item, rest) ← readItem (item.encode ++ encode items)
              let items ← readItems fuel rest
              return item :: items) := rfl
          rw [unfolded, head]
          simp [more]

theorem length_le_encode (items : List Item) :
    items.length ≤ (encode items).length := by
  induction items with
  | nil => exact Nat.le_refl 0
  | cons item items ih =>
      have positive := item.encode_length_pos
      have whole : encode (item :: items) = item.encode ++ encode items := rfl
      rw [whole, List.length_append, List.length_cons]
      omega

/-- What is written is read back. -/
@[simp]
theorem decode_encode (items : List Item) : decode (encode items) = some items :=
  readItems_encode _ (length_le_encode items)

end RoundTrip

/-- The number that the data writes, with the low byte first. -/
def littleEndian : List UInt8 → Nat
  | [] => 0
  | byte :: bytes => byte.toNat + 256 * littleEndian bytes

/-- What the global and local items have set.  Both limits of a value are taken
as unsigned numbers, and a usage is on the page that is set, since the usages of
four bytes, which name their page, are not read here. -/
structure ItemState where
  usagePage : Nat := 0
  logicalMin : Nat := 0
  logicalMax : Nat := 0
  reportSize : Nat := 0
  reportCount : Nat := 0
  reportId : Nat := 0
  usageMin : Nat := 0
  usageMax : Nat := 0
  deriving DecidableEq

/-- One or more values of the same kind in an input report. -/
structure Field where
  flags : Nat
  state : ItemState
  deriving DecidableEq

/-- The local part is forgotten after a main item. -/
def ItemState.afterMain (state : ItemState) : ItemState :=
  { state with usageMin := 0, usageMax := 0 }

def ItemState.setGlobal (state : ItemState) (tag value : Nat) : ItemState :=
  match tag with
  | 0 => { state with usagePage := value }
  | 1 => { state with logicalMin := value }
  | 2 => { state with logicalMax := value }
  | 7 => { state with reportSize := value }
  | 8 => { state with reportId := value }
  | 9 => { state with reportCount := value }
  | _ => state

def ItemState.setLocal (state : ItemState) (tag value : Nat) : ItemState :=
  match tag with
  | 1 => { state with usageMin := value }
  | 2 => { state with usageMax := value }
  | _ => state

/-- The input fields of a description in which every collection is closed once,
from `depth` open ones on.  The tags of main items are input 8, output 9,
feature 11, collection 10 and its end 12. -/
def inputFields : ItemState → Nat → List Item → Option (List Field)
  | _, depth, [] => if depth = 0 then some [] else none
  | state, depth, ⟨.global, tag, data⟩ :: items =>
      inputFields (state.setGlobal tag.toNat (littleEndian data.bytes)) depth items
  | state, depth, ⟨.local, tag, data⟩ :: items =>
      inputFields (state.setLocal tag.toNat (littleEndian data.bytes)) depth items
  | state, depth, ⟨.main, tag, data⟩ :: items =>
      match tag.toNat with
      | 8 => do
          let fields ← inputFields state.afterMain depth items
          return ⟨littleEndian data.bytes, state⟩ :: fields
      | 10 => inputFields state.afterMain (depth + 1) items
      | 12 =>
          match depth with
          | 0 => none
          | depth + 1 => inputFields state.afterMain depth items
      | _ => inputFields state.afterMain depth items

def describe (bytes : List UInt8) : Option (List Field) :=
  (decode bytes).bind (inputFields {} 0)

/-- How many bits the field takes. -/
def Field.bits (field : Field) : Nat :=
  field.state.reportSize * field.state.reportCount

/-- The fields of one report, in order. -/
def fieldsOf (reportId : Nat) (fields : List Field) : List Field :=
  fields.filter fun field => field.state.reportId = reportId

/-- The values are data and each of them selects a usage; else the field is
constant, or each of its values is a variable. -/
def Field.isArray (field : Field) : Bool := field.flags % 4 = 0

/-- The values of a field whose first bit is the lowest of `report`. -/
def Field.values (field : Field) (report : Nat) : List Nat :=
  (List.range field.state.reportCount).map fun index =>
    report / 2 ^ (index * field.state.reportSize) %
      2 ^ field.state.reportSize

/-- A usage of a page. -/
structure Usage where
  page : Nat
  id : Nat
  deriving DecidableEq

/-- The usage that a value of an array stands for.  Values outside the limits
stand for none. -/
def Field.usage (field : Field) (value : Nat) : Option Usage :=
  if field.isArray ∧ field.state.logicalMin ≤ value ∧
      value ≤ field.state.logicalMax then
    some ⟨field.state.usagePage,
      field.state.usageMin + (value - field.state.logicalMin)⟩
  else none

/-- The usages that the arrays of a report hold, field after field, without the
usage 0 of any page, which means that nothing happens. -/
def usages : List Field → Nat → List Usage
  | [], _ => []
  | field :: fields, report =>
      ((field.values report).filterMap field.usage).filter (·.id ≠ 0) ++
        usages fields (report / 2 ^ field.bits)

/-- What a report with the given id says is pressed. -/
def pressed (fields : List Field) (reportId : Nat) (report : List UInt8) :
    List Usage :=
  usages (fieldsOf reportId fields) (littleEndian report)

end HidItems

end SzpiSta
