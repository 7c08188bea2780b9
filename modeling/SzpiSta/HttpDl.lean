import SzpiSta.DownloadCalls
import SzpiSta.HexText

/-!
# Downloading a file and printing its checksum

The functions of sha256sum.c and http_dl.c.  `size_t` is 32 bits wide on the
target.  The reading loop of the checksum has a fuel; it is never cut short when
the fuel exceeds the length of the file.
-/

namespace SzpiSta

namespace HttpDl

open ExternalCalls ExternalCalls.Program HexText

/-- `READ_BUFFER_SIZE`. -/
def readBufferSize : UInt32 := 1024

/-- What ends the reading loop: the value of `bytes_read`, or a failed
update. -/
inductive ReadLoopExit where
  | bytesRead (value : Int)
  | updateFailed

def hashChunk (_ : Unit) : DownloadProgram (LoopStep Unit ReadLoopExit) := do
  match ← ask (.fsRead readBufferSize) with
  | .error bytesRead _ => return .leave (.bytesRead bytesRead)
  | .data buffer _ =>
    if buffer.length = 0 then
      return .leave (.bytesRead 0)
    let status ← ask (.psaHashUpdate buffer)
    if status ≠ 0 then
      return .leave .updateFailed
    return .again ()

/-- The exits of `calculate_file_sha256` that give the operation up. -/
def abortHash (rc : Int) (outputSha256 : Digest) :
    DownloadProgram (Int × Digest) := do
  ask .psaHashAbort
  ask .fsClose
  return (rc, outputSha256)

/-- `calculate_file_sha256` once the hash operation is set up: its steps 4 to
6. -/
def hashOpenedFile (fuel : Nat) (outputSha256 : Digest) :
    DownloadProgram (Int × Digest) := do
  match ← loop hashChunk fuel () with
  | .updateFailed => abortHash (-eIo) outputSha256
  | .bytesRead bytesRead =>
    if bytesRead < 0 then
      return ← abortHash bytesRead outputSha256
    let (status, hash) ← ask .psaHashFinish
    if status ≠ 0 then
      return ← abortHash (-eIo) hash
    ask .fsClose
    return (0, hash)

/-- The return code, and the output buffer as the call leaves it. -/
def calculateFileSha256 (fuel : Nat) (filepath : CString)
    (outputSha256 : Digest) : DownloadProgram (Int × Digest) := do
  let status ← ask .psaCryptoInit
  if status ≠ 0 then
    return (-eIo, outputSha256)
  let rc ← ask (.fsOpen filepath { read := true })
  if rc < 0 then
    return (rc, outputSha256)
  let status ← ask .psaHashSetup
  if status ≠ 0 then
    ask .fsClose
    return (-eIo, outputSha256)
  hashOpenedFile fuel outputSha256

/-- `"%s  %s\n"` of the digest in hexadecimal and the file name. -/
def sha256Line (sha256 : Digest) (filename : CString) : CString :=
  hexText sha256.toList ++ cString "  " ++ filename ++ cString "\n"

def printSha256Sum (sha256 : Digest) (filename : CString) :
    DownloadProgram Unit :=
  ask (.printk (sha256Line sha256 filename))

/-- `struct download_ctx`, without the file handle and the shell. -/
structure DownloadCtx where
  lastPrintTime : Int
  totalWritten : UInt32
  totalSize : UInt32
  hasSize : Bool
  deriving DecidableEq

/-- `ctx` as `http_dl_file` initialises it. -/
def DownloadCtx.initial : DownloadCtx where
  lastPrintTime := 0
  totalWritten := 0
  totalSize := 0
  hasSize := false

/-- Step 1 of the callback. -/
def DownloadCtx.noteSize (ctx : DownloadCtx) (rsp : HttpResponse) :
    DownloadCtx :=
  if rsp.clPresent ∧ ¬ ctx.hasSize then
    { ctx with totalSize := rsp.contentLength, hasSize := true }
  else
    ctx

/-- The percentage that is printed: 64-bit arithmetic, cut to an `int`. -/
def percentWritten (totalWritten totalSize : UInt32) : Int32 :=
  let percent :=
    (totalWritten.toUInt64 * 100 / totalSize.toUInt64).toUInt32.toInt32
  if 100 < percent then 100 else percent

/-- The 20 cells of the progress bar. -/
def progressBar (percent : Int32) : List Char :=
  let filled := percent / 5
  (List.range 20).map fun i => if Int32.ofNat i < filled then '=' else ' '

def DownloadCtx.progressText (ctx : DownloadCtx) : ProgressText :=
  if ctx.hasSize ∧ 0 < ctx.totalSize then
    let percent := percentWritten ctx.totalWritten ctx.totalSize
    .bar (progressBar percent) percent ctx.totalWritten ctx.totalSize
  else
    .downloaded ctx.totalWritten

/-- Step 3 of the callback: print at most once a second, and at the end. -/
def printProgress (finalData : HttpFinalCall) (ctx : DownloadCtx) :
    DownloadProgram DownloadCtx := do
  let now ← ask .kUptimeGet
  if finalData = .dataFinal ∨ 1000 ≤ now - ctx.lastPrintTime then
    let ctx := { ctx with lastPrintTime := now }
    ask (.shellFprintf ctx.progressText)
    if finalData = .dataFinal then
      ask (.shellFprintf .finished)
    return ctx
  return ctx

def httpDlResponseCb (rsp : HttpResponse) (finalData : HttpFinalCall)
    (ctx : DownloadCtx) : DownloadProgram (Int × DownloadCtx) := do
  let ctx := ctx.noteSize rsp
  if rsp.bodyFound ∧ 0 < rsp.bodyFrag.length then
    match ← ask (.fsWrite rsp.bodyFrag) with
    | .error written _ => return (written, ctx)
    | .stored _ _ =>
      let ctx := { ctx with
        totalWritten := ctx.totalWritten + UInt32.ofNat rsp.bodyFrag.length }
      let ctx ← printProgress finalData ctx
      return (0, ctx)
  else
    let ctx ← printProgress finalData ctx
    return (0, ctx)

/-- The client hands its reports to the callback until one is refused. -/
def deliverReports : List Report → DownloadCtx → DownloadProgram DownloadCtx
  | [], ctx => return ctx
  | report :: reports, ctx => do
    let (ret, ctx) ← httpDlResponseCb report.rsp report.finalData ctx
    if ret < 0 then
      return ctx
    deliverReports reports ctx

def httpClientReq (sock : Int) (req : HttpRequest) (timeout : Int)
    (ctx : DownloadCtx) : DownloadProgram (Int × DownloadCtx) := do
  let answer ← ask (.httpClientReq sock req timeout)
  let ctx ← deliverReports answer.reports ctx
  return (answer.ret, ctx)

/-- The return code, the socket, and the address found for the host. -/
def httpDlSocketInit (hostname port : CString) (sock : Int) :
    DownloadProgram (Int × Int × List UInt8) := do
  let (ret, addr) ← ask (.getaddrinfo hostname port)
  if ret ≠ 0 then
    return (-1, sock, [])
  let sock ← ask .socket
  return (ret, sock, addr)

/-- The return code and the socket. -/
def httpDlSocketConnect (hostname port : CString) (sock : Int) :
    DownloadProgram (Int × Int) := do
  let (ret, sock, addr) ← httpDlSocketInit hostname port sock
  if ret < 0 ∨ sock < 0 then
    return (-1, sock)
  let ret ← ask (.connect sock addr)
  if ret < 0 then
    ask (.close sock)
    let errno ← ask .errno
    return (-errno, -1)
  return (ret, sock)

/-- `5 * 60 * MSEC_PER_SEC`. -/
def requestTimeout : Int := 5 * 60 * 1000

/-- `http_dl_get_req`.  The value of `http_client_req` is only logged. -/
def httpDlGetReq (req : HttpRequest) (hostname port : CString)
    (ctx : DownloadCtx) : DownloadProgram (Int × DownloadCtx) := do
  let (_, sock4) ← httpDlSocketConnect hostname port (-1)
  if sock4 < 0 then
    return (-eConnAborted, ctx)
  let (_, ctx) ← httpClientReq sock4 req requestTimeout ctx
  ask (.close sock4)
  return (0, ctx)

/-- The request of a download. -/
def downloadRequest (hostname path : CString) : HttpRequest where
  url := path
  host := hostname
  protocol := cString "HTTP/1.1"
  recvBufLen := 1024

/-- The open flags of the file a download saves to. -/
def saveFlags : OpenFlags := { create := true, write := true }

/-- `output_sha256` before it is computed. -/
def zeroDigest : Digest := Vector.replicate 32 0

def httpDlFile (fuel : Nat) (hostname port path savePath : CString) :
    DownloadProgram Int := do
  let fullPath := snprintfFullPath fatfsGetRootPath savePath
  let ret ← ask (.fsOpen fullPath saveFlags)
  if ret < 0 then
    return ret
  let _ ← httpDlGetReq (downloadRequest hostname path) hostname port .initial
  ask .fsClose
  let (_, outputSha256) ← calculateFileSha256 fuel fullPath zeroDigest
  printSha256Sum outputSha256 fullPath
  return 0

/-- `cmd_http_dl`; the arguments include the name of the command. -/
def cmdHttpDl (fuel : Nat) : List CString → DownloadProgram Int
  | _ :: hostname :: port :: path :: savePath :: _ => do
    ask (.shellPrint (cString "download ..."))
    ask (.shellPrint (cString "server: " ++ hostname ++ cString ":" ++ port))
    ask (.shellPrint (cString "URL Path: " ++ path))
    ask (.shellPrint (cString "Save Path: " ++ savePath))
    let ret ← httpDlFile fuel hostname port path savePath
    if ret < 0 then
      ask (.shellError (cString ("download failed : " ++ toString ret)))
      return ret
    ask (.shellPrint (cString "Download Success!"))
    return 0
  | _ => return -eInval

end HttpDl

end SzpiSta
