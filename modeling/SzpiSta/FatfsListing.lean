import SzpiSta.Fatfs

/-!
# What `lsdir` reads

`lsdir` of fatfs.c reads the entries of a directory one after another and counts
them.  Its value is the code of the call that is refused; if none is, each entry
was read once, and the value is their number.
-/

namespace SzpiSta

namespace Fatfs

open ExternalCalls ExternalCalls.Program

/-- The code of a call of `lsdir`, where it has one. -/
def Event.code : Event Call.Answer → Int
  | ⟨.fsOpendir _, res⟩ => res
  | ⟨.fsReaddir, (res, _)⟩ => res
  | _ => 0

/-- The entry that was read. -/
def Event.entry : Event Call.Answer → Option CString
  | ⟨.fsReaddir, (res, name)⟩ => if res = 0 ∧ name ≠ [] then some name else none
  | _ => none

/-- The entries that were read, in order. -/
def entries (trace : List (Event Call.Answer)) : List CString :=
  trace.filterMap Event.entry

/-- No call is refused. -/
def Accepted (trace : List (Event Call.Answer)) : Prop :=
  ∀ event ∈ trace, Event.code event = 0

/-- The value is the code of every call that is refused. -/
def TellsRefusal (trace : List (Event Call.Answer)) (res : Int) : Prop :=
  ∀ event ∈ trace, Event.code event ≠ 0 → res = Event.code event

section Listing

variable {start world : World} {path : CString} {names : List CString}
variable {fuel count : Nat} {trace more : List (Event Call.Answer)} {res : Int}

theorem accepted_append_iff :
    Accepted (trace ++ more) ↔ Accepted trace ∧ Accepted more :=
  List.forall_mem_append

theorem accepted_singleton_iff {event : Event Call.Answer} :
    Accepted [event] ↔ Event.code event = 0 :=
  List.forall_mem_singleton

theorem tellsRefusal_append_iff :
    TellsRefusal (trace ++ more) res ↔
      TellsRefusal trace res ∧ TellsRefusal more res :=
  List.forall_mem_append

theorem Accepted.tellsRefusal (accepted : Accepted trace) :
    TellsRefusal trace res :=
  fun event member refused => (refused (accepted event member)).elim

theorem TellsRefusal.accepted (tells : TellsRefusal trace 0) :
    Accepted trace := by
  intro event member
  by_contra refused
  exact refused (tells event member refused).symm

theorem entries_append :
    entries (trace ++ more) = entries trace ++ entries more :=
  List.filterMap_append

/-- The loop has read some of the names, and has the others before it. -/
structure Reading (start : World) (names : List CString) (count : Nat)
    (trace : List (Event Call.Answer)) (world : World) : Prop where
  nodes : world.nodes = start.nodes
  left : ∃ left, world.dirp = some left ∧ entries trace ++ left = names
  counted : count = (entries trace).length
  accepted : Accepted trace

/-- What the loop leaves behind. -/
structure HasRead (names : List CString) (trace : List (Event Call.Answer))
    (res : Int) (count : Nat) : Prop where
  tells : TellsRefusal trace res
  whole : Accepted trace → res = 0 ∧ entries trace = names ∧ count = names.length

/-- One more entry is read. -/
theorem Reading.next {name : CString} {left : List CString}
    (reading : Reading start names count trace world)
    (opened : world.dirp = some (name :: left)) (accepted : Accepted more)
    (read : entries more = [name]) :
    Reading start names (count + 1) (trace ++ more)
      { world with dirp := some left } := by
  obtain ⟨nodes, ⟨others, same, together⟩, counted, before⟩ := reading
  obtain rfl : name :: left = others := Option.some.inj (opened.symm.trans same)
  refine ⟨nodes, ⟨left, rfl, ?_⟩, ?_, accepted_append_iff.mpr ⟨before, accepted⟩⟩
  · rw [entries_append, read, List.append_assoc]
    exact together
  · rw [entries_append, read, counted, List.length_append]
    rfl

/-- No entry is left. -/
theorem Reading.ended (reading : Reading start names count trace world)
    (opened : world.dirp = some []) (accepted : Accepted more)
    (read : entries more = []) : HasRead names (trace ++ more) 0 count := by
  obtain ⟨-, ⟨others, same, together⟩, counted, before⟩ := reading
  obtain rfl : [] = others := Option.some.inj (opened.symm.trans same)
  have all := accepted_append_iff.mpr ⟨before, accepted⟩
  rw [List.append_nil] at together
  refine ⟨all.tellsRefusal, fun _ => ⟨rfl, ?_, ?_⟩⟩
  · rw [entries_append, read, together, List.append_nil]
  · rw [counted, together]

/-- The card refuses to go on. -/
theorem Reading.refused {event : Event Call.Answer}
    (reading : Reading start names count trace world)
    (refused : Event.code event ≠ 0) :
    HasRead names (trace ++ [event]) (Event.code event) count := by
  refine ⟨?_, fun all => ?_⟩
  · exact tellsRefusal_append_iff.mpr ⟨reading.accepted.tellsRefusal,
      List.forall_mem_singleton.mpr fun _ => rfl⟩
  · obtain ⟨-, last⟩ := accepted_append_iff.mp all
    exact (refused (accepted_singleton_iff.mp last)).elim

theorem listEntry_ensures (named : [] ∉ names)
    (reading : Reading start names count trace world) :
    Ensures environment (listEntry count) world fun more step after =>
      step.Meets (fun next => Reading start names next (trace ++ more) after)
        fun (res, count) => after.nodes = start.nodes ∧
          HasRead names (trace ++ more) res count := by
  unfold listEntry
  simp only [ensures_bind, ensures_request]
  rintro ⟨res, name⟩ after answered
  dsimp only
  by_cases failed : res ≠ 0
  · have same : after = world := by simpa [environment, failed] using answered
    rw [if_pos (.inl failed)]
    exact ensures_pure.mpr ⟨same ▸ reading.nodes, reading.refused failed⟩
  obtain rfl : res = 0 := not_not.mp failed
  obtain ⟨left, opened, together⟩ := reading.left
  obtain ⟨rfl, rfl⟩ : name = left.headD [] ∧
      after = { world with dirp := some left.tail } := by
    simpa [environment, opened] using answered
  cases left with
  | nil =>
      rw [if_pos (.inr rfl)]
      exact ensures_pure.mpr ⟨reading.nodes,
        reading.ended opened (accepted_singleton_iff.mpr rfl) rfl⟩
  | cons name left =>
      have isName : name ≠ [] := by
        rintro rfl
        apply named
        simp [← together]
      have read : entries [⟨.fsReaddir, ((0 : Int), name)⟩] = [name] := by
        simp [entries, Event.entry, isName]
      rw [if_neg (by simpa using isName)]
      exact ensures_pure.mpr
        (reading.next opened (accepted_singleton_iff.mpr rfl) read)

theorem listLoop_ensures (named : [] ∉ names) (opened : world.dirp = some names) :
    Ensures environment (loop listEntry fuel 0) world fun trace result after =>
      after.nodes = world.nodes ∧ HasRead names trace result.1 result.2 :=
  ensures_loop (Reading world names)
    (fun _ _ _ reading => listEntry_ensures named reading) fuel
    ⟨rfl, ⟨names, opened, rfl⟩, rfl, List.forall_mem_nil _⟩

/-- The value of `lsdir`, which changes nothing. -/
theorem lsdir_ensures :
    Ensures environment (lsdir fuel path) world fun trace ret after =>
      after.nodes = world.nodes ∧ TellsRefusal trace ret ∧
        (Accepted trace →
          Lists world.nodes path (entries trace) ∧
            ret = (entries trace).length) := by
  unfold lsdir
  simp only [ensures_bind, ensures_request]
  intro (res : Int) opened answered
  split
  case isTrue failed =>
    have same : opened = world := by simpa [environment, failed] using answered
    refine ensures_pure.mpr ⟨congrArg World.nodes same, ?_, fun all => ?_⟩
    · simp [TellsRefusal, Event.code]
    · exact (failed (accepted_singleton_iff.mp all)).elim
  case isFalse succeeded =>
  obtain rfl : res = 0 := not_not.mp succeeded
  obtain ⟨names, lists, rfl⟩ : ∃ names, Lists world.nodes path names ∧
      opened = { world with dirp := some names } := by
    simpa [environment] using answered
  have named : [] ∉ names := fun member => (lists.isName [] member).1 rfl
  rw [ensures_bind]
  refine (listLoop_ensures named rfl).mono ?_
  rintro reads ⟨res, count⟩ after ⟨nodes, tells, whole⟩
  simp only [ensures_bind, ensures_request]
  rintro ⟨⟩ _ rfl
  dsimp only at nodes tells whole ⊢
  have opening : Accepted [⟨.fsOpendir path, (0 : Int)⟩] :=
    accepted_singleton_iff.mpr rfl
  have closing : Accepted [⟨.fsClosedir, ()⟩] := accepted_singleton_iff.mpr rfl
  have read : entries ([⟨.fsOpendir path, (0 : Int)⟩] ++
      (reads ++ [⟨.fsClosedir, ()⟩])) = entries reads := by
    rw [entries_append, entries_append]
    exact List.append_nil _
  split
  case isTrue ended =>
    have accepted : Accepted reads := (ended ▸ tells).accepted
    obtain ⟨-, same, counted⟩ := whole accepted
    have all := accepted_append_iff.mpr
      ⟨opening, accepted_append_iff.mpr ⟨accepted, closing⟩⟩
    rw [ensures_pure, List.append_nil, read, same, counted]
    exact ⟨nodes, all.tellsRefusal, fun _ => ⟨lists, rfl⟩⟩
  case isFalse failed =>
    refine ensures_pure.mpr ⟨nodes, ?_, fun all => ?_⟩
    · exact tellsRefusal_append_iff.mpr ⟨opening.tellsRefusal,
        tellsRefusal_append_iff.mpr ⟨tells, closing.tellsRefusal⟩⟩
    · obtain ⟨-, rest⟩ := accepted_append_iff.mp all
      exact (failed (whole (accepted_append_iff.mp rest).1).1).elim

/-- Two listings of a directory have the same length. -/
theorem Lists.length_eq {nodes : CString → Option Node} {others : List CString}
    (lists : Lists nodes path names) (other : Lists nodes path others) :
    names.length = others.length := by
  apply List.Perm.length_eq
  apply (List.perm_ext_iff_of_nodup lists.nodup other.nodup).mpr
  intro name
  constructor
  · exact fun member => (other.complete name (lists.isName name member)).mpr
      ((lists.complete name (lists.isName name member)).mp member)
  · exact fun member => (lists.complete name (other.isName name member)).mpr
      ((other.complete name (other.isName name member)).mp member)

/-- How many entries the open directory has still to list. -/
def World.unread (world : World) : Nat := (world.dirp.getD []).length

/-- Every further turn has read an entry. -/
theorem listEntry_advances :
    Ensures environment (listEntry count) world fun _ step after =>
      ∀ next, step = .again next → True ∧ after.unread < world.unread := by
  unfold listEntry
  simp only [ensures_bind, ensures_request]
  rintro ⟨res, name⟩ after answered
  dsimp only
  split
  case isTrue =>
    refine ensures_pure.mpr fun _ again => ?_
    cases again
  case isFalse goes =>
    obtain ⟨succeeded, someName⟩ := not_or.mp goes
    obtain ⟨left, opened, rfl, rfl⟩ : ∃ left, world.dirp = some left ∧
        name = left.headD [] ∧ after = { world with dirp := some left.tail } := by
      simpa [environment, not_not.mp succeeded] using answered
    refine ensures_pure.mpr fun _ _ => ⟨trivial, ?_⟩
    cases left with
    | nil => exact (someName rfl).elim
    | cons name left => simp [World.unread, opened]

theorem listEntry_completes :
    Completes environment (listEntry count) world := by
  apply completes_request_bind
  intro (res, name) _ _
  dsimp only
  split <;> exact completes_pure

/-- The fuel of the loop need only exceed the number of entries. -/
theorem lsdir_completes (lists : Lists world.nodes path names)
    (enough : names.length < fuel) :
    Completes environment (lsdir fuel path) world := by
  apply completes_request_bind
  intro (res : Int) opened answered
  split
  case isTrue => exact completes_pure
  case isFalse succeeded =>
  obtain ⟨others, other, rfl⟩ : ∃ names, Lists world.nodes path names ∧
      opened = { world with dirp := some names } := by
    simpa [environment, not_not.mp succeeded] using answered
  have loops : Completes environment (loop listEntry fuel 0)
      { world with dirp := some others } := by
    refine completes_loop (fun _ _ => True) (fun _ world => world.unread)
      (fun _ _ _ => listEntry_completes) (fun _ _ _ => listEntry_advances)
      trivial ?_
    have same := other.length_eq lists
    exact Nat.lt_of_le_of_lt (Nat.le_of_eq same) enough
  refine loops.bind fun _ result after _ => ?_
  apply completes_request_bind
  intro _ _ _
  split <;> exact completes_pure

end Listing

/-- For every directory, and whatever the card answers: `lsdir` changes nothing,
its value is the code of the call that is refused, and if none is, it has read
each entry once and returns their number.  It returns as soon as the fuel
exceeds that number. -/
theorem lsdir_counts_entries (path : CString) (world : World) :
    (∀ fuel, Ensures environment (lsdir fuel path) world fun trace ret after =>
        after.nodes = world.nodes ∧ TellsRefusal trace ret ∧
          (Accepted trace →
            Lists world.nodes path (entries trace) ∧
              ret = (entries trace).length)) ∧
      ∀ fuel names, Lists world.nodes path names → names.length < fuel →
        Completes environment (lsdir fuel path) world :=
  ⟨fun _ => lsdir_ensures, fun _ _ lists enough => lsdir_completes lists enough⟩

end Fatfs

end SzpiSta
