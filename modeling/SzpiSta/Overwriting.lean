import Mathlib.Data.List.Basic

/-!
# Overwriting a stretch of a sequence

A file or a memory is written by replacing the elements from some offset on.
For a list the write may run past the end, which extends it; a memory indexed
by all natural numbers has no end.
-/

namespace SzpiSta

namespace Overwriting

variable {α : Type*}

/-- Replace the elements of `content` from `offset` on by `data`. -/
def overwrite (content : List α) (offset : Nat) (data : List α) : List α :=
  content.take offset ++ data ++ content.drop (offset + data.length)

/-- Appending is overwriting at the end. -/
theorem overwrite_length (content data : List α) :
    overwrite content content.length data = content ++ data := by
  simp [overwrite]

/-- What was written at the front can be read from there. -/
theorem take_overwrite_zero (content data : List α) :
    (overwrite content 0 data).take data.length = data := by
  simp [overwrite]

/-- Writing on from where the rewritten front of a sequence ends: what is left
of the old content is its part beyond both. -/
theorem overwrite_front (front old data : List α) :
    overwrite (front ++ old.drop front.length) front.length data =
      (front ++ data) ++ old.drop (front ++ data).length := by
  simp [overwrite, List.drop_append]

theorem append_drop_eq_self_iff (front old : List α) :
    front ++ old.drop front.length = front ↔ old.length ≤ front.length := by
  constructor
  · intro unchanged
    have lengths := congrArg List.length unchanged
    simp only [List.length_append, List.length_drop] at lengths
    omega
  · intro shorter
    rw [List.drop_eq_nil_of_le shorter, List.append_nil]

theorem overwrite_zero (content data : List α) :
    overwrite content 0 data = data ++ content.drop data.length := by
  simp [overwrite]

theorem length_overwrite_zero (content data : List α) :
    (overwrite content 0 data).length = max content.length data.length := by
  rw [overwrite_zero, List.length_append, List.length_drop]
  omega

/-- The layers are written one after another, each from the start. -/
def layered (content : List α) (layers : List (List α)) : List α :=
  layers.foldl (fun content layer => overwrite content 0 layer) content

theorem layered_append (content : List α) (first rest : List (List α)) :
    layered content (first ++ rest) = layered (layered content first) rest :=
  List.foldl_append

/-- What is left is as long as the longest layer. -/
theorem length_layered_le_iff {content : List α} {layers : List (List α)}
    {length : Nat} :
    (layered content layers).length ≤ length ↔
      content.length ≤ length ∧ ∀ layer ∈ layers, layer.length ≤ length := by
  induction layers generalizing content with
  | nil => simp [layered]
  | cons layer layers ih =>
      rw [layered, List.foldl_cons, ← layered, ih, length_overwrite_zero,
        Nat.max_le, and_assoc, List.forall_mem_cons]

/-- The last layer alone is left exactly if nothing below it is longer. -/
theorem layered_concat_eq_iff {content last : List α} {layers : List (List α)} :
    layered content (layers ++ [last]) = last ↔
      content.length ≤ last.length ∧
        ∀ layer ∈ layers, layer.length ≤ last.length := by
  have top : layered content (layers ++ [last]) =
      last ++ (layered content layers).drop last.length := by
    rw [layered_append]
    exact overwrite_zero _ _
  rw [top, append_drop_eq_self_iff, length_layered_le_iff]

end Overwriting

end SzpiSta
