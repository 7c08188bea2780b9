import Mathlib.Data.Int.Notation
import Mathlib.Logic.Function.Basic
import SzpiSta.ExternalCalls
import SzpiSta.FileCalls
import SzpiSta.Overwriting

/-!
# The calls of a download

What http_dl.c and sha256sum.c call: the socket interface, the HTTP client, the
file system, the hash functions of PSA, the clock and the shell.  The
environment is the contract of these calls over a file system, the one file
that is open at a time, and the hash operation in progress.  Log lines are left
out, nothing reads them back.
-/

namespace SzpiSta

namespace HttpDl

open ExternalCalls ExternalCalls.Program Overwriting

/-- The 32 bytes of a SHA-256 value. -/
abbrev Digest := Vector UInt8 32

/-- `enum http_final_call`. -/
inductive HttpFinalCall where
  | dataMore
  | dataFinal
  deriving DecidableEq, Repr

/-- The fields of `struct http_response` that the callback reads.  The fragment
stands for `body_frag_start` and `body_frag_len`. -/
structure HttpResponse where
  clPresent : Bool
  contentLength : UInt32
  bodyFound : Bool
  bodyFrag : List UInt8
  bodyFragLen : bodyFrag.length < UInt32.size
  httpStatusCode : UInt16
  deriving DecidableEq

/-- The fields of `struct http_request` that the download sets. -/
structure HttpRequest where
  url : CString
  host : CString
  protocol : CString
  recvBufLen : UInt32
  deriving DecidableEq

/-- One report of the HTTP client to the callback. -/
structure Report where
  rsp : HttpResponse
  finalData : HttpFinalCall
  deriving DecidableEq

/-- What a request comes to: the reports the client makes as long as the
callback accepts them, and the value of `http_client_req`. -/
structure ClientAnswer where
  reports : List Report
  ret : Int

/-- The texts the callback prints. -/
inductive ProgressText where
  | bar (cells : List Char) (percent : Int32) (totalWritten totalSize : UInt32)
  | downloaded (totalWritten : UInt32)
  | finished
  deriving DecidableEq

inductive Call where
  | getaddrinfo (hostname port : CString)
  | socket
  | connect (sock : Int) (addr : List UInt8)
  | errno
  | close (sock : Int)
  | httpClientReq (sock : Int) (req : HttpRequest) (timeout : Int)
  | kUptimeGet
  | shellFprintf (text : ProgressText)
  | shellPrint (text : CString)
  | shellError (text : CString)
  | fsOpen (path : CString) (flags : OpenFlags)
  | fsWrite (data : List UInt8)
  | fsRead (count : UInt32)
  | fsClose
  | psaCryptoInit
  | psaHashSetup
  | psaHashUpdate (input : List UInt8)
  | psaHashFinish
  | psaHashAbort
  | printk (line : CString)
  deriving DecidableEq

/-- The answers: return codes, the address `getaddrinfo` found, the reports of
the client, and the buffer as `psa_hash_finish` leaves it. -/
@[reducible]
def Call.Answer : Call → Type
  | .getaddrinfo _ _ => Int × List UInt8
  | .socket => Int
  | .connect _ _ => Int
  | .errno => Int
  | .close _ => Unit
  | .httpClientReq _ _ _ => ClientAnswer
  | .kUptimeGet => Int
  | .shellFprintf _ => Unit
  | .shellPrint _ => Unit
  | .shellError _ => Unit
  | .fsOpen _ _ => Int
  | .fsWrite data => WriteAnswer data.length
  | .fsRead count => ReadAnswer count.toNat
  | .fsClose => Unit
  | .psaCryptoInit => Int
  | .psaHashSetup => Int
  | .psaHashUpdate _ => Int
  | .psaHashFinish => Int × Digest
  | .psaHashAbort => Unit
  | .printk _ => Unit

abbrev DownloadProgram := Program Call Call.Answer

abbrev Trace := List (Event Call.Answer)

abbrev ask (call : Call) : DownloadProgram call.Answer := request call

/-- The files, the open file, and what the hash operation has absorbed. -/
structure World where
  files : CString → Option (List UInt8)
  file : Option OpenFile
  hashed : List UInt8

/-- Store `data` at the position of the open file and move the position on. -/
def World.store (world : World) (file : OpenFile) (content data : List UInt8) :
    World :=
  { world with
    files := Function.update world.files file.path
      (some (overwrite content file.position data))
    file := some { file with position := file.position + data.length } }

/-- A file opened for writing keeps its content unless `trunc` is given, and is
accessed from its start. -/
def World.openFile (world : World) (path : CString) (flags : OpenFlags) :
    World :=
  let content := if flags.trunc then [] else (world.files path).getD []
  { world with
    files := Function.update world.files path (some content)
    file := some ⟨path, 0⟩ }

def environment (sha256 : List UInt8 → Digest) :
    Environment Call.Answer World where
  answers
    | before, .fsOpen path flags, rc, after =>
        if rc < 0 then after = before
        else (flags.create = false → (before.files path).isSome) ∧
          after = before.openFile path flags
    | before, .fsWrite data, answer, after =>
        match answer with
        | .error _ _ => after = before
        | .stored written _ => ∃ file content, before.file = some file ∧
            before.files file.path = some content ∧
            after = before.store file content (data.take written)
    | before, .fsRead count, answer, after =>
        match answer with
        | .error _ _ => after = before
        | .data bytes _ => ∃ file content, before.file = some file ∧
            before.files file.path = some content ∧
            ReadsOn content file.position count.toNat bytes ∧
            after = { before with
              file := some { file with position := file.position + bytes.length } }
    | before, .fsClose, _, after => after = { before with file := none }
    | before, .psaHashSetup, status, after =>
        if status = 0 then after = { before with hashed := [] }
        else after = before
    | before, .psaHashUpdate input, status, after =>
        if status = 0 then
          after = { before with hashed := before.hashed ++ input }
        else after = before
    | before, .psaHashFinish, (status, hash), after =>
        after = before ∧ (status = 0 → hash = sha256 before.hashed)
    | before, .getaddrinfo _ _, _, after => after = before
    | before, .socket, _, after => after = before
    | before, .connect _ _, _, after => after = before
    | before, .errno, _, after => after = before
    | before, .close _, _, after => after = before
    | before, .httpClientReq _ _ _, _, after => after = before
    | before, .kUptimeGet, _, after => after = before
    | before, .shellFprintf _, _, after => after = before
    | before, .shellPrint _, _, after => after = before
    | before, .shellError _, _, after => after = before
    | before, .psaCryptoInit, _, after => after = before
    | before, .psaHashAbort, _, after => after = before
    | before, .printk _, _, after => after = before

end HttpDl

end SzpiSta
