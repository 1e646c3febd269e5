import LwftpCe.Lib.Memory
import LwftpCe.Lib.Uint
import LwftpCe.Lwftp.Api

/-!
# The application: its data

`AppT V` is `app_t` and the memory of the application: the lists of files, `FILE_BUFFER`, the strings the session points to, and
the variables of the calculator, of type `V`, which are reached through `fileioc` (`Fileioc V`).  The state of the program is the
session with the application as its caller, `Session Ptr (AppT V)`.  Left out is what only the screen or the set-up of the
network reads, such as `dirty` and `connected`.
-/

namespace LwftpCe.App

open Lib Lwftp

/-! ### Constants of `defines.h` -/

def rxBufSize : ℕ := 255
def maxShownFiles : ℕ := 15
def maxLocalFiles : ℕ := 500
def maxRemoteFiles : ℕ := 8400 / 10 - maxLocalFiles
def fileBufferSize : ℕ := 65535

/-! ### Files -/

/-- The `TYPE_*` constants. -/
inductive FileType where
  | unknown | dir | prog | appvar
  deriving DecidableEq, Repr

/-- The first eight bytes of a `name` array.  The ninth one is never written: it is the `NUL` of the initial `memset`. -/
abbrev Name8 := { l : Bytes // l.length = 8 }

def name8 (l : Bytes) : Name8 := ⟨(l ++ List.replicate 8 0).take 8, by simp⟩

structure FileT where
  type : FileType
  name : Name8
  deriving DecidableEq

def FileT.str (f : FileT) : Bytes := cstr f.name.1

def FileT.zero : FileT := ⟨.unknown, name8 []⟩

abbrev FileList := ℕ → FileT

def FileList.clear (n : ℕ) (l : FileList) : FileList := fun i => if i < n then FileT.zero else l i

/-! ### The variables of the calculator -/

def osTypePrgm : UInt8 := 0x05
def osTypeProtPrgm : UInt8 := 0x06
def osTypeAppvar : UInt8 := 0x15

/-- What the calls on an opened variable return: the byte at `ti_GetVATPtr`, `ti_GetSize`, `ti_IsArchived`, and the memory
from `ti_GetDataPtr - 2` on. -/
structure Slot where
  vatType : UInt8
  size : ℕ
  archived : Bool
  mem : Mem

/-- The calls of `fileioc`. -/
structure Fileioc (V : Type) where
  /-- the variables in the order of `ti_DetectAny`, after `util_SortVAT`: the eight bytes at the name, and the type -/
  detectAny : V → List (Name8 × UInt8)
  /-- `ti_OpenVar(name, "r", type)` -/
  openVar : V → Bytes → UInt8 → Slot
  /-- `ti_OpenVar(name, "w", type)`, `ti_Write` and `ti_SetArchiveStatus` -/
  writeVar : V → Bytes → UInt8 → Bytes → Bool → V
  /-- `ti_DeleteVar` -/
  deleteVar : V → Bytes → UInt8 → V

def noVars : Fileioc Unit where
  detectAny _ := []
  openVar _ _ _ := ⟨0, 0, false, fun _ => 0⟩
  writeVar _ _ _ _ _ := ()
  deleteVar _ _ _ := ()

/-! ### The state -/

/-- The objects of the application that the session has pointers to. -/
inductive Ptr where
  | appPath | input | user | pass
  | ftpConnectCallback | ftpListDataSink | ftpListCallback | ftpPwdDataSink | ftpPwdCallback | ftpCwdCallback
  | ftpDelCallback | ftpMoveCallback | ftpStorDataSource | ftpStorCallback | ftpRetrDataSink | ftpRetrCallback
  deriving DecidableEq, Repr

/-- `app_t` and the memory of the application.  An array over the two columns is a function on `remoteColumn`. -/
structure AppT (V : Type) where
  remoteColumn : Bool := false
  start : Bool → ℕ := fun _ => 0
  selected : Bool → ℕ := fun _ => 0
  total : Bool → ℕ := fun _ => 0
  dir : UInt8 := 0
  ftpStarted : Bool := false
  busy : Bool := false
  ftpResult : Result := .inprogress
  txOffset : ℕ := 0
  txSize : ℕ := 0
  /-- the array, `RX_BUF_SIZE + 2` bytes -/
  rxBuf : Bytes := List.replicate (rxBufSize + 2) 0
  /-- the string in the array, of as many bytes; a longer string runs over its end -/
  path : Bytes := []
  rxOffset : ℕ := 0
  localFiles : FileList := fun _ => FileT.zero
  remoteFiles : FileList := fun _ => FileT.zero
  fileBuffer : Mem := fun _ => 0
  /-- the string in `input` of `util_MoveFile` -/
  input : Bytes := []
  /-- the strings in `user` and `pass` of `main` -/
  userName : Bytes := []
  password : Bytes := []
  vars : V
  /-- what the next `tcp_new` of a data connection returns -/
  tcpNew : Option ℕ := none
  /-- set when the code writes through a `NULL` pointer -/
  fault : Bool := false

variable {V : Type}

abbrev Prog (V : Type) := Session Ptr (AppT V)

def onApp (f : AppT V → AppT V) (s : Prog V) : Prog V := { s with usr := f s.usr }

def onUser (f : User Ptr → User Ptr) (s : Prog V) : Prog V := { s with user := f s.user }

namespace AppT

def cutPath (a : AppT V) : AppT V :=
  match cutLast 47 a.path with
  | none => { a with fault := true }
  | some p => { a with path := p }

def dropEntry (a : AppT V) : AppT V :=
  let c := a.remoteColumn
  let a := { a with total := Function.update a.total c (usub (a.total c) 1) }
  if a.total c ≠ 0 ∧ a.selected c = a.total c then
    { a with selected := Function.update a.selected c (usub (a.selected c) 1) }
  else a

@[simp] lemma dropEntry_path (a : AppT V) : a.dropEntry.path = a.path := by
  unfold dropEntry
  simp only
  split_ifs <;> rfl

end AppT

end LwftpCe.App
