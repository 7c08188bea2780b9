import Mathlib.Data.List.Basic

/-!
# The file system calls of the firmware

Types shared by the modules that use Zephyr's file system: paths as C strings
without their terminator, the open flags, what `fs_stat` reports, and the
answers of `fs_read` and `fs_write`.  An answer carries the bound the API
documents, so no larger count can be represented.
-/

namespace SzpiSta

/-- A C string without its terminating zero. -/
abbrev CString := List UInt8

/-- `EINVAL`. -/
def eInval : Int := 22

/-- `ENOMEM`. -/
def eNoMem : Int := 12

/-- `EIO`. -/
def eIo : Int := 5

/-- `ECONNABORTED`. -/
def eConnAborted : Int := 113

/-- The `FS_O_*` flags of `fs_open`. -/
structure OpenFlags where
  read : Bool := false
  write : Bool := false
  create : Bool := false
  append : Bool := false
  trunc : Bool := false
  deriving DecidableEq, Repr

inductive FsDirEntryType where
  | file
  | dir
  deriving DecidableEq, Repr

/-- The fields of `struct fs_dirent` the firmware reads. -/
structure FsDirent where
  type : FsDirEntryType
  size : UInt32
  deriving DecidableEq, Repr

/-- What `fs_read` of `count` bytes brings back. -/
inductive ReadAnswer (count : Nat) where
  | error (code : Int) (negative : code < 0)
  | data (bytes : List UInt8) (fits : bytes.length ≤ count)

/-- What `fs_write` of `count` bytes brings back. -/
inductive WriteAnswer (count : Nat) where
  | error (code : Int) (negative : code < 0)
  | stored (written : Nat) (fits : written ≤ count)
  deriving DecidableEq

/-- An open file: its path and the position of the next access. -/
structure OpenFile where
  path : CString
  position : Nat
  deriving DecidableEq, Repr

/-- The bytes of the opened file that one read brings: some of those that
follow the position, none only at the end of the file. -/
def ReadsOn (content : List UInt8) (position count : Nat)
    (bytes : List UInt8) : Prop :=
  bytes = (content.drop position).take bytes.length ∧
    (bytes = [] → 0 < count → content.length ≤ position)

section Reading

variable {content bytes : List UInt8} {position count : Nat}

theorem ReadsOn.length_le (reads : ReadsOn content position count bytes)
    (before : position ≤ content.length) :
    position + bytes.length ≤ content.length := by
  have lengths := congrArg List.length reads.1
  simp only [List.length_take, List.length_drop] at lengths
  omega

theorem ReadsOn.getElem? (reads : ReadsOn content position count bytes)
    {index : Nat} (inside : index < bytes.length) :
    content[position + index]? = some bytes[index] := by
  have same := congrArg (fun list : List UInt8 => list[index]?) reads.1
  simp only [List.getElem?_take, inside, if_true, List.getElem?_drop] at same
  rw [← same, List.getElem?_eq_getElem inside]

end Reading

/-- The bytes of a string literal. -/
def cString (text : String) : CString := text.toUTF8.data.toList

/-- `DISK_MOUNT_PT` of fatfs.c, the string `/SD:`. -/
def diskMountPt : CString := cString "/SD:"

def fatfsGetRootPath : CString := diskMountPt

/-- `char full_path[128]` of the callers. -/
def fullPathSize : Nat := 128

/-- `snprintf(full_path, sizeof(full_path), "%s/%s", root_path, name)`: what
does not fit the buffer with its terminator is cut off. -/
def snprintfFullPath (rootPath name : CString) : CString :=
  (rootPath ++ cString "/" ++ name).take (fullPathSize - 1)

example : snprintfFullPath fatfsGetRootPath (cString "1.img") =
    cString "/SD:/1.img" := by decide

end SzpiSta
