import SzpiSta.CBuffers
import SzpiSta.CStrings
import SzpiSta.ExternalCalls
import SzpiSta.FileCalls

/-!
# The card at boot

`fatfs_init` of fatfs.c with its helpers: mount the card, list its root and put a
file and a directory there if it is empty.  The paths of the two are built in an
array on the stack.  Printed lines are left out.

The environment says of a directory what `fs_readdir` brings: every entry once,
and then an empty name.
-/

namespace SzpiSta

namespace Fatfs

open ExternalCalls ExternalCalls.Program CBuffers CStrings

/-- `MAX_PATH`. -/
def maxPath : Nat := 128

/-- `SOME_FILE_NAME`. -/
def someFileName : CString := cString "some.dat"

/-- `SOME_DIR_NAME`. -/
def someDirName : CString := cString "some"

/-- `SOME_REQUIRED_LEN`, which counts the terminators. -/
def someRequiredLen : Nat := max (someFileName.length + 1) (someDirName.length + 1)

inductive Call where
  | fsMount
  | fsOpendir (path : CString)
  | fsReaddir
  | fsClosedir
  | fsOpen (path : CString) (flags : OpenFlags)
  | fsClose
  | fsMkdir (path : CString)
  deriving DecidableEq

/-- The answers: return codes, and the name of the entry that `fs_readdir` has
filled in. -/
@[reducible]
def Call.Answer : Call → Type
  | .fsMount => Int
  | .fsOpendir _ => Int
  | .fsReaddir => Int × CString
  | .fsClosedir => Unit
  | .fsOpen _ _ => Int
  | .fsClose => Unit
  | .fsMkdir _ => Int

abbrev FatfsProgram := Program Call Call.Answer

abbrev ask (call : Call) : FatfsProgram call.Answer := request call

/-- One turn of the loop of `lsdir`, which counts the entries.  A directory of FAT
has at most 2 ^ 16, so the counter does not overflow. -/
def listEntry (count : Nat) : FatfsProgram (LoopStep Nat (Int × Nat)) := do
  let (res, name) ← ask .fsReaddir
  if res ≠ 0 ∨ name = [] then
    return .leave (res, count)
  return .again (count + 1)

def lsdir (fuel : Nat) (path : CString) : FatfsProgram Int := do
  let res ← ask (.fsOpendir path)
  if res ≠ 0 then
    return res
  let (res, count) ← loop listEntry fuel 0
  ask .fsClosedir
  if res = 0 then
    return count
  return res

/-- `path` with the base path and a slash behind it. -/
def basePart (basePath : CString) (path : Memory) : Memory :=
  store (strncpy path 0 basePath maxPath) basePath.length 0x2f

/-- A name is put where the terminator of the base path belongs. -/
def namePart (base : Nat) (name : CString) (path : Memory) : Memory :=
  strcat (store path base 0) base name maxPath

/-- `path` for `fs_open`. -/
def filePart (basePath : CString) (path : Memory) : Memory :=
  namePart (basePath.length + 1) someFileName (basePart basePath path)

/-- `path` for `fs_mkdir`. -/
def dirPart (basePath : CString) (path : Memory) : Memory :=
  namePart (basePath.length + 1) someDirName (filePart basePath path)

/-- `path` is the array on the stack as it is found. -/
def createSomeEntries (path : Memory) (basePath : CString) :
    FatfsProgram Bool := do
  if basePath.length ≥ maxPath - someRequiredLen then
    return false
  let rc ← ask (.fsOpen (stringAt (filePart basePath path) 0 maxPath)
    { create := true })
  if rc ≠ 0 then
    return false
  ask .fsClose
  let _ ← ask (.fsMkdir (stringAt (dirPart basePath path) 0 maxPath))
  return true

def fatfsInit (fuel : Nat) (path : Memory) : FatfsProgram Int := do
  let rc ← ask .fsMount
  if rc ≠ 0 then
    return -1
  let count ← lsdir fuel diskMountPt
  if count = 0 then
    let created ← createSomeEntries path diskMountPt
    if created then
      let _ ← lsdir fuel diskMountPt
      return 0
    return 0
  return 0

inductive Node where
  | file (content : List UInt8)
  | dir
  deriving DecidableEq

/-- The files and directories by their paths, and the names that the open
directory has still to list. -/
structure World where
  nodes : CString → Option Node
  dirp : Option (List CString)

/-- A name of an entry, which is not empty and has no slash. -/
def IsName (name : CString) : Prop := name ≠ [] ∧ 0x2f ∉ name

instance : ∀ name, Decidable (IsName name) := fun _ =>
  inferInstanceAs (Decidable (_ ∧ _))

/-- The path of an entry. -/
def entryPath (path name : CString) : CString := path ++ 0x2f :: name

/-- The names are those of the entries of a directory, each once. -/
structure Lists (nodes : CString → Option Node) (path : CString)
    (names : List CString) : Prop where
  nodup : names.Nodup
  isName : ∀ name ∈ names, IsName name
  complete : ∀ name, IsName name →
    (name ∈ names ↔ (nodes (entryPath path name)).isSome)

/-- A new entry is made. -/
def Adds (path : CString) (node : Node) (before after : World) : Prop :=
  before.nodes path = none ∧
    after = { before with
      nodes := Function.update before.nodes path (some node) }

/-- A call that fails may still have made its entry. -/
def environment : Environment Call.Answer World where
  answers
    | before, .fsMount, _, after => after = before
    | before, .fsOpendir path, res, after =>
        if res ≠ 0 then after = before
        else ∃ names, Lists before.nodes path names ∧
          after = { before with dirp := some names }
    | before, .fsReaddir, (res, name), after =>
        if res ≠ 0 then after = before
        else ∃ names, before.dirp = some names ∧ name = names.headD [] ∧
          after = { before with dirp := some names.tail }
    | before, .fsClosedir, _, after => after = { before with dirp := none }
    | before, .fsOpen path flags, rc, after =>
        (after = before ∧
            (rc = 0 → ∃ content, before.nodes path = some (.file content))) ∨
          (flags.create ∧ Adds path (.file []) before after)
    | before, .fsClose, _, after => after = before
    | before, .fsMkdir path, rc, after =>
        (after = before ∧ rc ≠ 0) ∨ Adds path .dir before after

section Paths

variable {basePath name : CString} {path : Memory} {base : Nat}

theorem namePart_eq : namePart base name path =
    overwriteAt (store path base 0) base (name ++ [0]) :=
  strcat_empty terminated_store (by decide)

/-- The name behind what was there before. -/
theorem terminated_namePart {front : List UInt8} (noNul : 0 ∉ front)
    (nameNoNul : 0 ∉ name) (stands : Front path 0 front) :
    Terminated (namePart front.length name path) 0 (front ++ name) := by
  rw [namePart_eq]
  apply Terminated.behind
  · rw [Nat.zero_add]
    exact terminated_overwriteAt nameNoNul
  · apply stands.congr
    intro index _ before
    rw [Nat.zero_add] at before
    rw [overwriteAt_outside (.inl before), store_of_ne (Nat.ne_of_lt before)]
  · exact noNul

theorem namePart_outside {index : Nat} (outside : base + name.length < index) :
    namePart base name path index = path index := by
  rw [namePart_eq, overwriteAt_outside, store_of_ne (by omega)]
  right
  rw [List.length_append, List.length_singleton]
  omega

theorem front_basePart (short : basePath.length < maxPath) :
    Front (basePart basePath path) 0 (basePath ++ [0x2f]) := by
  apply front_append_iff.mpr
  constructor
  · apply (front_strncpy (Nat.le_of_lt short)).congr
    intro index _ before
    rw [Nat.zero_add] at before
    exact store_of_ne (Nat.ne_of_lt before)
  · intro index inside
    obtain rfl : index = 0 := Nat.lt_one_iff.mp inside
    simp [basePart]

theorem front_namePart {front : List UInt8} (stands : Front path 0 front) :
    Front (namePart front.length name path) 0 front := by
  rw [namePart_eq]
  apply stands.congr
  intro index _ before
  rw [Nat.zero_add] at before
  rw [overwriteAt_outside (.inl before), store_of_ne (Nat.ne_of_lt before)]

theorem basePart_outside {index : Nat} (short : basePath.length < maxPath)
    (outside : maxPath ≤ index) : basePart basePath path index = path index := by
  rw [basePart, store_of_ne (by omega), strncpy_outside (.inr (by omega))]

theorem limit_eq : maxPath - someRequiredLen = 119 := by decide

/-- Both names are found again behind the base path. -/
theorem some_paths_read (noNul : 0 ∉ basePath)
    (short : basePath.length < maxPath - someRequiredLen) (path : Memory) :
    stringAt (filePart basePath path) 0 maxPath =
        entryPath basePath someFileName ∧
      stringAt (dirPart basePath path) 0 maxPath =
        entryPath basePath someDirName := by
  have room : maxPath = 128 := rfl
  have fileLength : someFileName.length = 8 := by decide
  have dirLength : someDirName.length = 4 := by decide
  rw [limit_eq] at short
  have slash : (0 : UInt8) ∉ basePath ++ [0x2f] := by simpa using noNul
  have length : (basePath ++ [0x2f]).length = basePath.length + 1 :=
    List.length_append
  have base : Front (basePart basePath path) 0 (basePath ++ [0x2f]) :=
    front_basePart (by omega)
  have fits (name : CString) (nameNoNul : 0 ∉ name) (small : name.length ≤ 8)
      {before : Memory} (stands : Front before 0 (basePath ++ [0x2f])) :
      stringAt (namePart (basePath.length + 1) name before) 0 maxPath =
        entryPath basePath name := by
    have terminated := terminated_namePart slash nameNoNul stands
    rw [length, List.append_assoc] at terminated
    apply terminated.stringAt_eq
    rw [List.length_append, List.length_append, List.length_singleton]
    omega
  have file : Front (filePart basePath path) 0 (basePath ++ [0x2f]) := by
    have kept : Front (namePart (basePath ++ [0x2f]).length someFileName
        (basePart basePath path)) 0 (basePath ++ [0x2f]) := front_namePart base
    rwa [length] at kept
  exact ⟨fits someFileName (by decide) (by omega) base,
    fits someDirName (by decide) (by omega) file⟩

/-- The array is left neither for the file nor for the directory. -/
theorem some_paths_inside {index : Nat}
    (short : basePath.length < maxPath - someRequiredLen)
    (outside : maxPath ≤ index) :
    filePart basePath path index = path index ∧
      dirPart basePath path index = path index := by
  have room : maxPath = 128 := rfl
  have fileLength : someFileName.length = 8 := by decide
  have dirLength : someDirName.length = 4 := by decide
  rw [limit_eq] at short
  have file : filePart basePath path index = path index := by
    rw [filePart, namePart_outside (by omega)]
    exact basePart_outside (by omega) outside
  refine ⟨file, ?_⟩
  rw [dirPart, namePart_outside (by omega)]
  exact file

/-- Where the terminator of the file's path goes, whatever the length of the
base path. -/
theorem filePart_terminator :
    filePart basePath path (basePath.length + 9) = 0 := by
  have length : someFileName.length = 8 := by decide
  have whole : Terminated (overwriteAt
      (store (basePart basePath path) (basePath.length + 1) 0)
      (basePath.length + 1) (someFileName ++ [0])) (basePath.length + 1)
      someFileName := terminated_overwriteAt (by decide)
  have ends := whole.terminator
  rw [← namePart_eq, length] at ends
  exact ends

end Paths

end Fatfs

end SzpiSta
