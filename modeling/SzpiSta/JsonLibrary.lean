import Mathlib.Data.List.Basic
import SzpiSta.CStrings
import SzpiSta.JsonText

/-!
# The kernel's JSON library

What the program relies on of `json_obj_encode_buf` and `json_obj_parse`.  Both
are given descriptors of the fields of a structure, which are strings or arrays
of structures of strings.  Encoding writes every field and every element; parsing
looks every field up by its name, leaves a missing one zero, and fails on an
array that has more elements than its descriptor allows.
-/

namespace SzpiSta

namespace JsonLibrary

open CStrings JsonText

/-- `JSON_TOK_STRING`, or an array of at most `maxLen` objects, described by the
names of their fields, which are strings. -/
inductive FieldType where
  | tokString
  | objArray (maxLen : Nat) (elemDescr : List (List UInt8))

/-- `struct json_obj_descr`. -/
structure JsonObjDescr where
  fieldName : List UInt8
  type : FieldType

/-- The strings of a structure, each of them a pointer. -/
abbrev Element := List (Option CText)

/-- A field of a structure in memory.  An array is its elements in use. -/
inductive FieldValue where
  | string (text : Option CText)
  | objArray (elems : List Element)

/-- The JSON string of a pointer, unless it is NULL. -/
def describeString (text : Option CText) : Option Json :=
  text.map fun text => .str text.bytes

def describeElement : List (List UInt8) → Element →
    Option (List (List UInt8 × Json))
  | [], [] => some []
  | name :: names, text :: texts => do
      let json ← describeString text
      let members ← describeElement names texts
      return (name, json) :: members
  | _, _ => none

def describeField : FieldType → FieldValue → Option Json
  | .tokString, .string text => describeString text
  | .objArray _ elemDescr, .objArray elems => do
      let items ← elems.mapM fun elem =>
        (describeElement elemDescr elem).map Json.obj
      return .arr items
  | _, _ => none

def describeFields : List JsonObjDescr → List FieldValue →
    Option (List (List UInt8 × Json))
  | [], [] => some []
  | descr :: descrs, value :: values => do
      let json ← describeField descr.type value
      let members ← describeFields descrs values
      return (descr.fieldName, json) :: members
  | _, _ => none

/-- The object that a structure is encoded as. -/
def describe (descrs : List JsonObjDescr) (values : List FieldValue) :
    Option Json :=
  (describeFields descrs values).map Json.obj

/-- The string of a member, which is no C string if it has a zero byte. -/
def decodeString : Json → Option CText
  | .str text => if noNul : 0 ∉ text then some ⟨text, noNul⟩ else none
  | _ => none

def decodeElement (elemDescr : List (List UInt8)) : Json → Option Element
  | .obj members => elemDescr.mapM fun name =>
      match members.lookup name with
      | none => some none
      | some json => (decodeString json).map some
  | _ => none

/-- A field, given its member if the object has it. -/
def decodeField : FieldType → Option Json → Option FieldValue
  | .tokString, none => some (.string none)
  | .tokString, some json =>
      (decodeString json).map fun text => .string (some text)
  | .objArray _ _, none => some (.objArray [])
  | .objArray maxLen elemDescr, some (.arr items) =>
      if items.length ≤ maxLen then
        (items.mapM (decodeElement elemDescr)).map .objArray
      else none
  | .objArray _ _, some _ => none

/-- The structure that an object is parsed into. -/
def decode (descrs : List JsonObjDescr) : Json → Option (List FieldValue)
  | .obj members => descrs.mapM fun descr =>
      decodeField descr.type (members.lookup descr.fieldName)
  | _ => none

/-- `json_obj_encode_buf`, with its return code and the string it leaves in a
buffer of the given size, and `json_obj_parse`, with its return code and the
structure it fills in. -/
structure Library where
  encodeBuf : List JsonObjDescr → List FieldValue → UInt32 → Int × CText
  objParse : List JsonObjDescr → CText → Int × List FieldValue

/-- The library does what its documentation says, for text without escapes. -/
structure Library.Documented (library : Library) : Prop where
  encodes : ∀ descrs values size json, describe descrs values = some json →
    json.Plain → 0 ≤ (library.encodeBuf descrs values size).1 →
    (library.encodeBuf descrs values size).2.bytes = json.render
  parses : ∀ descrs (text : CText) json values, text.bytes = json.render →
    json.Plain → decode descrs json = some values →
    0 ≤ (library.objParse descrs text).1 ∧
      (library.objParse descrs text).2 = values
  refuses : ∀ descrs (text : CText) json, text.bytes = json.render →
    json.Plain → decode descrs json = none →
    (library.objParse descrs text).1 < 0

/-- `-EINVAL`. -/
def invalid : Int := -22

/-- `-ENOMEM`. -/
def noMemory : Int := -12

/-- A bit for every described field that the object has. -/
def decodedFields : List JsonObjDescr → List (List UInt8 × Json) → Nat
  | [], _ => 0
  | descr :: descrs, members =>
      (if (members.lookup descr.fieldName).isSome then 1 else 0) +
        2 * decodedFields descrs members

/-- An implementation for text without escapes and spaces. -/
def plainLibrary : Library where
  encodeBuf descrs values size :=
    match describe descrs values with
    | none => (invalid, ⟨[], List.not_mem_nil⟩)
    | some json =>
        if noNul : 0 ∉ json.render then
          if json.render.length < size.toNat then (0, ⟨json.render, noNul⟩)
          else (noMemory, ⟨[], List.not_mem_nil⟩)
        else (invalid, ⟨[], List.not_mem_nil⟩)
  objParse descrs text :=
    match parse text.bytes with
    | some (.obj members) =>
        match decode descrs (.obj members) with
        | some values => (decodedFields descrs members, values)
        | none => (invalid, [])
    | _ => (invalid, [])

theorem plainLibrary_documented : plainLibrary.Documented where
  encodes := by
    intro descrs values size json described plain encoded
    simp only [plainLibrary, described] at encoded ⊢
    split
    · split
      · rfl
      · rename_i noNul large
        rw [dif_pos noNul, if_neg large] at encoded
        cases encoded
    · rename_i nul
      rw [dif_neg nul] at encoded
      cases encoded
  parses := by
    intro descrs text json values same plain decoded
    cases json with
    | str | arr => cases decoded
    | obj members =>
        simp [plainLibrary, same, parse_render plain, decoded]
  refuses := by
    intro descrs text json same plain refused
    cases json with
    | str | arr => simp [plainLibrary, same, parse_render plain, invalid]
    | obj members =>
        simp [plainLibrary, same, parse_render plain, refused, invalid]

end JsonLibrary

end SzpiSta
