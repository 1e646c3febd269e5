import LwftpCe.App.Defs

/-!
# The application: `utility.c`

The functions of `utility.c` that work on the two lists and on the session, in the order of the file; `api` is the API of the
session.  `util_UploadFile`, `util_DownloadFile` and `util_MoveFile` wait in a loop that services the network: they are cut in
two there (`utilDownloadEnd`, `utilMoveEnd`), and the main loop puts the parts together.
-/

namespace LwftpCe.App

open Lib Lwftp

variable {V : Type}

/-! ### The lists -/

def localFile (v : Name8 × UInt8) : Option FileT :=
  let c := v.1.1.headD 0
  if c = 33 ∨ c = 35 then none
  else
    -- a hidden name; `char` is signed, so the bytes from 128 on are less than 'A'
    let name : Name8 := if c < 65 ∨ 128 ≤ c then ⟨v.1.1.set 0 (c + 64), by simpa using v.1.2⟩ else v.1
    if v.2 = osTypeAppvar then some ⟨.appvar, name⟩
    else if v.2 = osTypeProtPrgm ∨ v.2 = osTypePrgm then some ⟨.prog, name⟩
    else none

def utilGetLocalFiles (F : Fileioc V) (a : AppT V) : AppT V :=
  let files := (F.detectAny a.vars).filterMap localFile
  { a with
    localFiles := fun i => (files[i]?).getD (FileList.clear maxLocalFiles a.localFiles i)
    total := Function.update a.total false (files.length % uintRange) }

def AppT.clearRemote (a : AppT V) : AppT V :=
  { a with
    busy := true, rxOffset := 0, total := Function.update a.total true 0
    rxBuf := List.replicate (rxBufSize + 2) 0, remoteFiles := FileList.clear maxRemoteFiles a.remoteFiles }

def utilGetRemoteFiles (api : Api → Prog V → Prog V) (s : Prog V) : Prog V :=
  let s := onApp AppT.clearRemote s
  let s := onUser (fun u => { u with dataSink := some .ftpListDataSink, doneFn := some .ftpListCallback }) s
  api (.mlsd s.usr.tcpNew) s

def utilGetDir (api : Api → Prog V → Prog V) (s : Prog V) : Prog V :=
  let s := onApp (fun a => { a with busy := true, rxOffset := 0, path := [] }) s
  api .printDir (onUser (fun u => { u with dataSink := some .ftpPwdDataSink, doneFn := some .ftpPwdCallback }) s)

def utilChangeDir (api : Api → Prog V → Prog V) (s : Prog V) : Prog V :=
  let s := onApp (fun a => { a with
    busy := true, selected := Function.update a.selected true 0, start := Function.update a.start true 0 }) s
  api .changeDir (onUser (fun u => { u with remotePath := some .appPath, doneFn := some .ftpCwdCallback }) s)

/-! ### Names -/

def extension (f : FileT) : Bytes := ascii ".8x" ++ [if f.type = .appvar then 118 else 112]

def fileName (f : FileT) : Bytes := f.str ++ extension f

def filePath (path : Bytes) (f : FileT) : Bytes := path ++ 47 :: fileName f

def dirPath (path : Bytes) (f : FileT) : Bytes := path ++ 47 :: f.str

def AppT.localEntry (a : AppT V) : FileT := a.localFiles (a.selected false)
def AppT.remoteEntry (a : AppT V) : FileT := a.remoteFiles (a.selected true)

def appendName (f : FileT) (s : Prog V) : Prog V :=
  onUser (fun u => { u with remotePath := some .appPath }) (onApp (fun a => { a with path := filePath a.path f }) s)

def osType (f : FileT) : UInt8 := if f.type = .appvar then osTypeAppvar else osTypePrgm

/-! ### The file operations -/

def utilDeleteFile (F : Fileioc V) (api : Api → Prog V → Prog V) (s : Prog V) : Prog V :=
  if s.usr.remoteColumn = false then
    let f := s.usr.localEntry
    let s := onApp (fun a => utilGetLocalFiles F { a with vars := F.deleteVar a.vars f.str (osType f) }) s
    onApp AppT.dropEntry s
  else if s.usr.remoteEntry.type = .dir then s
  else
    let s := appendName s.usr.remoteEntry (onApp (fun a => { a with busy := true }) s)
    onApp AppT.dropEntry (api .delete (onUser (fun u => { u with doneFn := some .ftpDelCallback }) s))

def utilMoveFile (s : Prog V) : Option (Prog V) :=
  if s.usr.remoteColumn = false ∨ s.usr.remoteEntry.type = .dir then none
  else some (onApp (fun a => { a with input := [] }) (appendName s.usr.remoteEntry s))

def utilMoveEnd (api : Api → Prog V → Prog V) (str : Bytes) (s : Prog V) : Prog V :=
  if str = [] then s
  else
    let str := if str.getLast? = some 47 then str ++ fileName s.usr.remoteEntry else str
    let s := onApp (fun a => { a with input := str, busy := true }) s
    api .move (onUser (fun u => { u with remoteNewPath := some .input, doneFn := some .ftpMoveCallback }) s)

def utilComputeChecksum (m : Mem) (off n : ℕ) : ℕ := (m.read off n).foldl (fun sum b => (sum + b.toNat) % 65536) 0

def header : Bytes := ascii "**TI83F*" ++ [0x1A, 0x0A, 0x00]

def comment : Bytes := ascii "Uploaded by lwFTP CE" ++ [0]

def imageHead (f : FileT) (slot : Slot) (m : Mem) : Mem :=
  let m := m.fill 0 fileBufferSize 0
  let m := m.write 0 header
  let m := m.write 11 comment
  let m := m.write 53 (le16 (slot.size + 19))
  let m := m.write 55 (le16 0xD)
  let m := m.write 57 (le16 (slot.size + 2))
  let m := m.write 59 [slot.vatType]
  m.write 60 f.name.1

def imageBody (off : ℕ) (slot : Slot) (m : Mem) : Mem :=
  let m := m.write off (le16 (slot.size + 2))
  let m := m.write (off + 2) (slot.mem.read 0 (2 + slot.size))
  m.write (off + 2 + 2 + slot.size) (le16 (utilComputeChecksum m (11 + 42 + 2) (17 + slot.size)))

def fileImage (f : FileT) (slot : Slot) (m : Mem) : Mem :=
  let m := imageHead f slot m
  if slot.archived then imageBody 70 slot (m.write 69 [0x80]) else imageBody 69 slot m

def AppT.startUpload (F : Fileioc V) (f : FileT) (a : AppT V) : AppT V :=
  let slot := F.openVar a.vars f.str (osType f)
  { a with
    fileBuffer := fileImage f slot a.fileBuffer, txSize := 11 + 42 + 2 + 17 + slot.size + 4, txOffset := 0, busy := true }

def utilUploadFile (F : Fileioc V) (api : Api → Prog V → Prog V) (s : Prog V) : Option (Prog V) :=
  if s.usr.remoteColumn then none
  else
    let s := onApp (AppT.startUpload F s.usr.localEntry) (appendName s.usr.localEntry s)
    let s := onUser (fun u => { u with dataSource := some .ftpStorDataSource, doneFn := some .ftpStorCallback }) s
    some (api (.store s.usr.tcpNew) s)

def AppT.startDownload (a : AppT V) : AppT V :=
  { a with fileBuffer := a.fileBuffer.fill 0 fileBufferSize 0, rxOffset := 0, busy := true }

def utilDownloadFile (api : Api → Prog V → Prog V) (s : Prog V) : Option (Prog V) :=
  if s.usr.remoteColumn = false then none
  else
    let s := onApp AppT.startDownload (appendName s.usr.remoteEntry s)
    let s := onUser (fun u => { u with dataSink := some .ftpRetrDataSink, doneFn := some .ftpRetrCallback }) s
    some (api (.retrieve s.usr.tcpNew) s)

def utilDownloadEnd (s : Prog V) : Prog V := onUser (fun u => { u with doneFn := none }) (onApp AppT.cutPath s)

end LwftpCe.App
