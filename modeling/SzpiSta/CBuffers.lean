import Mathlib.Data.List.Basic
import Mathlib.Data.List.GetD
import Mathlib.Logic.Function.Basic

/-!
# Building strings in arrays of C

Memory is a byte for every index from the start of an array on, also behind its
end, since C checks no index.  A string stands at an index with its terminator
behind it.  The rules say where the string functions write, and what string
stands there afterwards.
-/

namespace SzpiSta

namespace CBuffers

abbrev Memory := Nat → UInt8

def store (mem : Memory) (index : Nat) (value : UInt8) : Memory :=
  Function.update mem index value

/-- The bytes from an index on are replaced. -/
def overwriteAt (mem : Memory) (start : Nat) (bytes : List UInt8) : Memory :=
  fun index =>
    if start ≤ index then bytes.getD (index - start) (mem index) else mem index

/-- `strncpy`: the string, filled up with zeros or cut off. -/
def strncpy (mem : Memory) (start : Nat) (text : List UInt8) (n : Nat) : Memory :=
  fun index =>
    if start ≤ index ∧ index < start + n then text.getD (index - start) 0
    else mem index

/-- The string at an index, as far as `limit` bytes. -/
def stringAt (mem : Memory) (start : Nat) : Nat → List UInt8
  | 0 => []
  | limit + 1 =>
      if mem start = 0 then [] else mem start :: stringAt mem (start + 1) limit

/-- `strcat` to a string of fewer than `limit` bytes. -/
def strcat (mem : Memory) (start : Nat) (text : List UInt8) (limit : Nat) :
    Memory :=
  overwriteAt mem (start + (stringAt mem start limit).length) (text ++ [0])

/-- The bytes stand at the index. -/
def Front (mem : Memory) (start : Nat) (bytes : List UInt8) : Prop :=
  ∀ (index : Nat) (inside : index < bytes.length),
    mem (start + index) = bytes[index]

/-- The string stands at the index, with its terminator. -/
structure Terminated (mem : Memory) (start : Nat) (text : List UInt8) : Prop where
  front : Front mem start text
  terminator : mem (start + text.length) = 0
  noNul : 0 ∉ text

section Rules

variable {mem : Memory} {start index : Nat} {text bytes : List UInt8}

theorem front_cons_iff {byte : UInt8} :
    Front mem start (byte :: bytes) ↔
      mem start = byte ∧ Front mem (start + 1) bytes := by
  constructor
  · intro front
    refine ⟨front 0 (Nat.succ_pos _), fun index inside => ?_⟩
    rw [Nat.add_assoc, Nat.add_comm 1]
    exact front (index + 1) (Nat.succ_lt_succ inside)
  · rintro ⟨head, tail⟩ index inside
    cases index with
    | zero => exact head
    | succ index =>
        have next := tail index (Nat.lt_of_succ_lt_succ inside)
        rwa [Nat.add_assoc, Nat.add_comm 1] at next

theorem front_append_iff {more : List UInt8} :
    Front mem start (bytes ++ more) ↔
      Front mem start bytes ∧ Front mem (start + bytes.length) more := by
  induction bytes generalizing start with
  | nil => simp [Front]
  | cons byte bytes ih =>
      rw [List.cons_append, front_cons_iff, front_cons_iff, ih, and_assoc,
        List.length_cons, Nat.add_assoc, Nat.add_comm 1]

theorem Front.congr {other : Memory} (front : Front mem start bytes)
    (same : ∀ index, start ≤ index → index < start + bytes.length →
      other index = mem index) : Front other start bytes := by
  intro index inside
  rw [same _ (Nat.le_add_right start index) (Nat.add_lt_add_left inside start)]
  exact front index inside

/-- A string that stands behind other bytes. -/
theorem Terminated.behind (terminated : Terminated mem (start + bytes.length) text)
    (front : Front mem start bytes) (noNul : 0 ∉ bytes) :
    Terminated mem start (bytes ++ text) := by
  constructor
  · exact front_append_iff.mpr ⟨front, terminated.front⟩
  · rw [List.length_append, ← Nat.add_assoc]
    exact terminated.terminator
  · rw [List.mem_append]
    exact not_or.mpr ⟨noNul, terminated.noNul⟩

/-- Reading gives the string back. -/
theorem Terminated.stringAt_eq {limit : Nat} (terminated : Terminated mem start text)
    (short : text.length < limit) : stringAt mem start limit = text := by
  induction text generalizing start limit with
  | nil =>
      cases limit with
      | zero => cases short
      | succ limit => exact if_pos terminated.terminator
  | cons byte text ih =>
      cases limit with
      | zero => cases short
      | succ limit =>
          obtain ⟨head, tail⟩ := front_cons_iff.mp terminated.front
          have nonzero : mem start ≠ 0 := by
            rw [head]
            exact fun zero => terminated.noNul (zero ▸ List.mem_cons_self)
          have rest : Terminated mem (start + 1) text := by
            refine ⟨tail, ?_, fun member => terminated.noNul (.tail _ member)⟩
            have ends := terminated.terminator
            rwa [List.length_cons, Nat.add_comm text.length,
              ← Nat.add_assoc] at ends
          rw [stringAt, if_neg nonzero, ih rest (Nat.lt_of_succ_lt_succ short),
            head]

theorem store_of_ne {value : UInt8} (apart : index ≠ start) :
    store mem start value index = mem index :=
  Function.update_of_ne apart _ _

@[simp]
theorem store_self {value : UInt8} : store mem start value start = value :=
  Function.update_self ..

/-- An empty string. -/
theorem terminated_store : Terminated (store mem start 0) start [] :=
  ⟨fun _ inside => (Nat.not_lt_zero _ inside).elim, store_self,
    List.not_mem_nil⟩

theorem overwriteAt_outside
    (outside : index < start ∨ start + bytes.length ≤ index) :
    overwriteAt mem start bytes index = mem index := by
  unfold overwriteAt
  split
  · have behind : bytes.length ≤ index - start := by omega
    exact List.getD_eq_default _ _ behind
  · rfl

theorem front_overwriteAt : Front (overwriteAt mem start bytes) start bytes := by
  intro index inside
  rw [overwriteAt, if_pos (Nat.le_add_right start index),
    Nat.add_sub_cancel_left]
  exact List.getD_eq_getElem _ _ inside

theorem strncpy_outside {n : Nat} (outside : index < start ∨ start + n ≤ index) :
    strncpy mem start text n index = mem index :=
  if_neg (by omega)

theorem front_strncpy {n : Nat} (fits : text.length ≤ n) :
    Front (strncpy mem start text n) start text := by
  intro index inside
  rw [strncpy, if_pos (by omega), Nat.add_sub_cancel_left]
  exact List.getD_eq_getElem _ _ inside

/-- A string is appended to the empty string at an index. -/
theorem strcat_empty {limit : Nat} (empty : Terminated mem start [])
    (some_limit : 0 < limit) :
    strcat mem start text limit = overwriteAt mem start (text ++ [0]) := by
  rw [strcat, empty.stringAt_eq some_limit]
  rfl

theorem terminated_overwriteAt (noNul : 0 ∉ text) :
    Terminated (overwriteAt mem start (text ++ [0])) start text := by
  have whole : Front (overwriteAt mem start (text ++ [0])) start (text ++ [0]) :=
    front_overwriteAt
  obtain ⟨front, ends⟩ := front_append_iff.mp whole
  exact ⟨front, ends 0 (Nat.succ_pos 0), noNul⟩

end Rules

end CBuffers

end SzpiSta
