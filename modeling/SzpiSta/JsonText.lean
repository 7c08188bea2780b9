import Mathlib.Data.List.Basic

/-!
# JSON text without escapes

Strings, arrays and objects, written without spaces and without escapes, and a
reader for such text.  The reader gives back every value whose strings need no
escape, so its text determines the value.
-/

namespace SzpiSta

namespace JsonText

inductive Json where
  | str (text : List UInt8)
  | arr (items : List Json)
  | obj (members : List (List UInt8 × Json))

def quoteMark : UInt8 := 0x22

def comma : UInt8 := 0x2c

def colon : UInt8 := 0x3a

def leftBracket : UInt8 := 0x5b

def rightBracket : UInt8 := 0x5d

def leftBrace : UInt8 := 0x7b

def rightBrace : UInt8 := 0x7d

/-- The quotation mark, the backslash and the control characters. -/
def needsEscape (byte : UInt8) : Bool :=
  byte = quoteMark || byte = 0x5c || byte < 0x20

def PlainText (text : List UInt8) : Prop := ∀ byte ∈ text, ¬ needsEscape byte

instance (text : List UInt8) : Decidable (PlainText text) :=
  List.decidableBAll (fun byte => ¬ needsEscape byte) text

def quote (text : List UInt8) : List UInt8 := quoteMark :: text ++ [quoteMark]

mutual

def Json.render : Json → List UInt8
  | .str text => quote text
  | .arr items => leftBracket :: renderItems items
  | .obj members => leftBrace :: renderMembers members

/-- The items of an array and its end. -/
def renderItems : List Json → List UInt8
  | [] => [rightBracket]
  | item :: items => item.render ++ renderMoreItems items

def renderMoreItems : List Json → List UInt8
  | [] => [rightBracket]
  | item :: items => comma :: (item.render ++ renderMoreItems items)

/-- The members of an object and its end. -/
def renderMembers : List (List UInt8 × Json) → List UInt8
  | [] => [rightBrace]
  | (name, value) :: members =>
      quote name ++ colon :: (value.render ++ renderMoreMembers members)

def renderMoreMembers : List (List UInt8 × Json) → List UInt8
  | [] => [rightBrace]
  | (name, value) :: members =>
      comma :: (quote name ++
        colon :: (value.render ++ renderMoreMembers members))

end

mutual

def Json.Plain : Json → Prop
  | .str text => PlainText text
  | .arr items => PlainItems items
  | .obj members => PlainMembers members

def PlainItems : List Json → Prop
  | [] => True
  | item :: items => item.Plain ∧ PlainItems items

def PlainMembers : List (List UInt8 × Json) → Prop
  | [] => True
  | (name, value) :: members =>
      PlainText name ∧ value.Plain ∧ PlainMembers members

end

/-- A string up to its closing quotation mark. -/
def readText : List UInt8 → Option (List UInt8 × List UInt8)
  | [] => none
  | byte :: s =>
      if byte = quoteMark then some ([], s)
      else if needsEscape byte then none
      else (readText s).map fun (text, s) => (byte :: text, s)

/-- A name and the colon after it. -/
def readName : List UInt8 → Option (List UInt8 × List UInt8)
  | [] => none
  | byte :: s =>
      if byte = quoteMark then
        match readText s with
        | some (name, byte :: s) =>
            if byte = colon then some (name, s) else none
        | _ => none
      else none

mutual

/-- A value at the head of the text, and the rest of the text. -/
def readValue : Nat → List UInt8 → Option (Json × List UInt8)
  | 0, _ => none
  | _ + 1, [] => none
  | fuel + 1, byte :: s =>
      if byte = quoteMark then
        (readText s).map fun (text, s) => (.str text, s)
      else if byte = leftBracket then
        (readItems fuel s).map fun (items, s) => (.arr items, s)
      else if byte = leftBrace then
        (readMembers fuel s).map fun (members, s) => (.obj members, s)
      else none

def readItems : Nat → List UInt8 → Option (List Json × List UInt8)
  | 0, _ => none
  | _ + 1, [] => none
  | fuel + 1, byte :: s =>
      if byte = rightBracket then some ([], s)
      else do
        let (item, s) ← readValue fuel (byte :: s)
        let (items, s) ← readMoreItems fuel s
        return (item :: items, s)

def readMoreItems : Nat → List UInt8 → Option (List Json × List UInt8)
  | 0, _ => none
  | _ + 1, [] => none
  | fuel + 1, byte :: s =>
      if byte = rightBracket then some ([], s)
      else if byte = comma then do
        let (item, s) ← readValue fuel s
        let (items, s) ← readMoreItems fuel s
        return (item :: items, s)
      else none

def readMembers :
    Nat → List UInt8 → Option (List (List UInt8 × Json) × List UInt8)
  | 0, _ => none
  | _ + 1, [] => none
  | fuel + 1, byte :: s =>
      if byte = rightBrace then some ([], s)
      else do
        let (name, s) ← readName (byte :: s)
        let (value, s) ← readValue fuel s
        let (members, s) ← readMoreMembers fuel s
        return ((name, value) :: members, s)

def readMoreMembers :
    Nat → List UInt8 → Option (List (List UInt8 × Json) × List UInt8)
  | 0, _ => none
  | _ + 1, [] => none
  | fuel + 1, byte :: s =>
      if byte = rightBrace then some ([], s)
      else if byte = comma then do
        let (name, s) ← readName s
        let (value, s) ← readValue fuel s
        let (members, s) ← readMoreMembers fuel s
        return ((name, value) :: members, s)
      else none

end

/-- The value that is the whole text.  No step of the reader nests deeper than
twice the length of the text. -/
def parse (text : List UInt8) : Option Json :=
  match readValue (2 * text.length) text with
  | some (json, []) => some json
  | _ => none

theorem readText_append {text : List UInt8} (plain : PlainText text)
    (s : List UInt8) :
    readText (text ++ quoteMark :: s) = some (text, s) := by
  induction text with
  | nil => rfl
  | cons byte text ih =>
      have here : ¬ needsEscape byte := plain byte List.mem_cons_self
      have notQuote : byte ≠ quoteMark := by
        rintro rfl
        exact here rfl
      have rest := ih fun byte member => plain byte (.tail _ member)
      simp only [List.cons_append, readText, if_neg notQuote, if_neg here, rest]
      rfl

theorem readName_quote {name : List UInt8} (plain : PlainText name)
    (s : List UInt8) : readName (quote name ++ colon :: s) = some (name, s) := by
  simp only [quote, List.append_assoc, List.cons_append, List.nil_append,
    readName, readText_append plain]
  rfl

theorem readValue_quote {text : List UInt8} (plain : PlainText text)
    (fuel : Nat) (s : List UInt8) :
    readValue (fuel + 1) (quote text ++ s) = some (.str text, s) := by
  simp only [quote, List.append_assoc, List.cons_append, List.nil_append,
    readValue, readText_append plain]
  rfl

theorem Json.render_head (json : Json) :
    ∃ byte tail, json.render = byte :: tail ∧ byte ≠ rightBracket := by
  cases json with
  | str text => exact ⟨quoteMark, _, rfl, by decide⟩
  | arr items => exact ⟨leftBracket, _, rfl, by decide⟩
  | obj members => exact ⟨leftBrace, _, rfl, by decide⟩

/-- A value between brackets is read item by item. -/
theorem readItems_cons (fuel : Nat) (item : Json) (s : List UInt8) :
    readItems (fuel + 1) (item.render ++ s) =
      (do
        let (item, s) ← readValue fuel (item.render ++ s)
        let (items, s) ← readMoreItems fuel s
        return (item :: items, s)) := by
  obtain ⟨byte, tail, head, notEnd⟩ := item.render_head
  rw [head, List.cons_append, readItems, if_neg notEnd]

theorem readMembers_cons (fuel : Nat) (name s : List UInt8) :
    readMembers (fuel + 1) (quote name ++ s) =
      (do
        let (name, s) ← readName (quote name ++ s)
        let (value, s) ← readValue fuel s
        let (members, s) ← readMoreMembers fuel s
        return ((name, value) :: members, s)) := by
  rw [quote, List.append_assoc, List.cons_append, readMembers,
    if_neg (by decide)]

mutual

/-- The reader undoes the text, whatever follows it. -/
theorem Json.readValue_render (json : Json) (plain : json.Plain) (fuel : Nat)
    (enough : 2 * json.render.length ≤ fuel) (s : List UInt8) :
    readValue fuel (json.render ++ s) = some (json, s) := by
  cases fuel with
  | zero =>
      obtain ⟨byte, tail, head, -⟩ := json.render_head
      rw [head, List.length_cons] at enough
      omega
  | succ fuel =>
      match json with
      | .str text =>
          rw [Json.Plain] at plain
          rw [Json.render, readValue_quote plain]
      | .arr items =>
          rw [Json.Plain] at plain
          simp only [Json.render, List.length_cons] at enough
          have read := readItems_render items plain fuel (by omega) s
          simp only [Json.render, List.cons_append, readValue, read]
          rfl
      | .obj members =>
          rw [Json.Plain] at plain
          simp only [Json.render, List.length_cons] at enough
          have read := readMembers_render members plain fuel (by omega) s
          simp only [Json.render, List.cons_append, readValue, read]
          rfl

theorem readItems_render (items : List Json) (plain : PlainItems items)
    (fuel : Nat) (enough : 2 * (renderItems items).length + 1 ≤ fuel)
    (s : List UInt8) :
    readItems fuel (renderItems items ++ s) = some (items, s) := by
  cases fuel with
  | zero => omega
  | succ fuel =>
      match items with
      | [] => rfl
      | item :: items =>
          obtain ⟨plainItem, plainItems⟩ := plain
          simp only [renderItems, List.length_append] at enough
          have first := item.readValue_render plainItem fuel (by omega)
            (renderMoreItems items ++ s)
          have more := readMoreItems_render items plainItems fuel (by omega) s
          rw [renderItems, List.append_assoc, readItems_cons, first]
          simp only [Option.bind_eq_bind, Option.bind_some, more]
          rfl

theorem readMoreItems_render (items : List Json) (plain : PlainItems items)
    (fuel : Nat) (enough : 2 * (renderMoreItems items).length ≤ fuel)
    (s : List UInt8) :
    readMoreItems fuel (renderMoreItems items ++ s) = some (items, s) := by
  cases fuel with
  | zero => cases items <;> simp [renderMoreItems] at enough
  | succ fuel =>
      match items with
      | [] => rfl
      | item :: items =>
          obtain ⟨plainItem, plainItems⟩ := plain
          simp only [renderMoreItems, List.length_cons, List.length_append]
            at enough
          have first := item.readValue_render plainItem fuel (by omega)
            (renderMoreItems items ++ s)
          have more := readMoreItems_render items plainItems fuel (by omega) s
          rw [renderMoreItems, List.cons_append, List.append_assoc,
            readMoreItems, if_neg (by decide), if_pos rfl, first]
          simp only [Option.bind_eq_bind, Option.bind_some, more]
          rfl

theorem readMembers_render (members : List (List UInt8 × Json))
    (plain : PlainMembers members) (fuel : Nat)
    (enough : 2 * (renderMembers members).length + 1 ≤ fuel)
    (s : List UInt8) :
    readMembers fuel (renderMembers members ++ s) = some (members, s) := by
  cases fuel with
  | zero => omega
  | succ fuel =>
      match members with
      | [] => rfl
      | (name, value) :: members =>
          obtain ⟨plainName, plainValue, plainMembers⟩ := plain
          simp only [renderMembers, List.length_append, List.length_cons]
            at enough
          have first := value.readValue_render plainValue fuel (by omega)
            (renderMoreMembers members ++ s)
          have more := readMoreMembers_render members plainMembers fuel
            (by omega) s
          rw [renderMembers, List.append_assoc, List.cons_append,
            List.append_assoc, readMembers_cons, readName_quote plainName]
          simp only [Option.bind_eq_bind, Option.bind_some, first, more]
          rfl

theorem readMoreMembers_render (members : List (List UInt8 × Json))
    (plain : PlainMembers members) (fuel : Nat)
    (enough : 2 * (renderMoreMembers members).length ≤ fuel)
    (s : List UInt8) :
    readMoreMembers fuel (renderMoreMembers members ++ s) =
      some (members, s) := by
  cases fuel with
  | zero =>
      match members with
      | [] => simp [renderMoreMembers] at enough
      | (name, value) :: members => simp [renderMoreMembers] at enough
  | succ fuel =>
      match members with
      | [] => rfl
      | (name, value) :: members =>
          obtain ⟨plainName, plainValue, plainMembers⟩ := plain
          simp only [renderMoreMembers, List.length_append, List.length_cons]
            at enough
          have first := value.readValue_render plainValue fuel (by omega)
            (renderMoreMembers members ++ s)
          have more := readMoreMembers_render members plainMembers fuel
            (by omega) s
          rw [renderMoreMembers, List.cons_append, List.append_assoc,
            List.cons_append, List.append_assoc, readMoreMembers,
            if_neg (by decide), if_pos rfl, readName_quote plainName]
          simp only [Option.bind_eq_bind, Option.bind_some, first, more]
          rfl

end

theorem parse_render {json : Json} (plain : json.Plain) :
    parse json.render = some json := by
  have read := json.readValue_render plain (2 * json.render.length)
    (Nat.le_refl _) []
  rw [List.append_nil] at read
  rw [parse, read]

end JsonText

end SzpiSta
