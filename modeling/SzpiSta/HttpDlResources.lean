import SzpiSta.HeldResources
import SzpiSta.HttpDlFile
import SzpiSta.TransitionPaths

/-!
# What a download holds and releases

A download holds the file, the address list of `getaddrinfo`, a socket and, for
the checksum, a hash operation.  File, socket and hash operation are released on
every way out.  The address list is not: http_dl.c has no `freeaddrinfo`, so a
download releases all it acquired exactly if it resolved no name.
-/

namespace SzpiSta

namespace HttpDl

open ExternalCalls ExternalCalls.Program HeldResources TransitionPaths

inductive Resource where
  | file
  | addrinfo
  | socket (fd : Int)
  | hashOperation
  deriving DecidableEq

/-- What an answered call does with the resources of a download. -/
@[simp]
def Event.uses : Event Call.Answer → List (Use Resource)
  | ⟨.getaddrinfo _ _, (ret, _)⟩ => if ret = 0 then [.acquire .addrinfo] else []
  | ⟨.socket, sock⟩ =>
      .use .addrinfo :: if sock < 0 then [] else [.acquire (.socket sock)]
  | ⟨.connect sock _, _⟩ => [.use (.socket sock)]
  | ⟨.close sock, _⟩ => [.release (.socket sock)]
  | ⟨.httpClientReq sock _ _, _⟩ => [.use (.socket sock)]
  | ⟨.fsOpen _ _, rc⟩ => if rc < 0 then [] else [.acquire .file]
  | ⟨.fsWrite _, _⟩ => [.use .file]
  | ⟨.fsRead _, _⟩ => [.use .file]
  | ⟨.fsClose, _⟩ => [.release .file]
  | ⟨.psaHashSetup, status⟩ =>
      if status = 0 then [.acquire .hashOperation] else []
  | ⟨.psaHashUpdate _, _⟩ => [.use .hashOperation]
  | ⟨.psaHashFinish, (status, _)⟩ =>
      if status = 0 then [.release .hashOperation] else [.use .hashOperation]
  | ⟨.psaHashAbort, _⟩ => [.release .hashOperation]
  | _ => []

/-- A resolution that allocates an address list. -/
def Resolves : Event Call.Answer → Prop
  | ⟨.getaddrinfo _ _, (ret, _)⟩ => ret = 0
  | _ => False

section Checksum

variable {held : List Resource} {fuel : Nat} {outputSha256 : Digest}
variable {rc : Int} {filepath : CString}

theorem hashChunk_accounts :
    Accounts Event.uses (fun _ left => left = .hashOperation :: .file :: held)
      (hashChunk ()) (.hashOperation :: .file :: held) := by
  unfold hashChunk
  apply accounts_request_bind
  intro answer
  refine ⟨.hashOperation :: .file :: held, by simp, ?_⟩
  rcases answer with ⟨code, negative⟩ | ⟨bytes, fits⟩
  · exact rfl
  dsimp only
  split
  · exact rfl
  apply accounts_request_bind
  intro status
  refine ⟨.hashOperation :: .file :: held, by simp, ?_⟩
  split <;> exact rfl

theorem abortHash_accounts :
    Accounts Event.uses (fun _ left => left = held)
      (abortHash rc outputSha256) (.hashOperation :: .file :: held) := by
  refine accounts_request_bind fun _ => ⟨.file :: held, ?_, ?_⟩
  · simp
  · exact accounts_request_bind fun _ => ⟨held, by simp, rfl⟩

theorem hashOpenedFile_accounts :
    Accounts Event.uses (fun _ left => left = held)
      (hashOpenedFile fuel outputSha256) (.hashOperation :: .file :: held) := by
  unfold hashOpenedFile
  apply (accounts_loop (fun _ => hashChunk_accounts) fuel ()).bind
  rintro (bytesRead | _) _ rfl
  · dsimp only
    split
    · exact abortHash_accounts
    apply accounts_request_bind
    rintro ⟨status, hash⟩
    by_cases succeeded : status = 0
    · refine ⟨.file :: held, by simp [succeeded], ?_⟩
      dsimp only
      rw [if_neg (not_not.mpr succeeded)]
      exact accounts_request_bind fun _ => ⟨held, by simp, rfl⟩
    · refine ⟨.hashOperation :: .file :: held, ?_, ?_⟩
      · simp [succeeded]
      · dsimp only
        rw [if_pos succeeded]
        exact abortHash_accounts
  · exact abortHash_accounts

/-- The checksum gives back all it acquires, where it finds file and hash
operation free. -/
theorem calculateFileSha256_accounts (noFile : .file ∉ held)
    (noOperation : .hashOperation ∉ held) :
    Accounts Event.uses (fun _ left => left = held)
      (calculateFileSha256 fuel filepath outputSha256) held := by
  unfold calculateFileSha256
  apply accounts_other_bind (fun _ => rfl)
  intro status
  split
  · exact rfl
  apply accounts_request_bind
  intro rc
  by_cases refused : rc < 0
  · refine ⟨held, by simp [refused], ?_⟩
    rw [if_pos refused]
    exact rfl
  refine ⟨.file :: held, by simp [refused, noFile], ?_⟩
  rw [if_neg refused]
  apply accounts_request_bind
  intro status
  by_cases succeeded : status = 0
  · refine ⟨.hashOperation :: .file :: held, ?_, ?_⟩
    · simp [succeeded, noOperation]
    · rw [if_neg (not_not.mpr succeeded)]
      exact hashOpenedFile_accounts
  · refine ⟨.file :: held, by simp [succeeded], ?_⟩
    rw [if_pos succeeded]
    exact accounts_request_bind fun _ => ⟨held, by simp, rfl⟩

end Checksum

section Request

variable {held : List Resource} {req : HttpRequest} {hostname port : CString}
variable {ctx : DownloadCtx}

theorem printProgress_accounts {finalData : HttpFinalCall} :
    Accounts Event.uses (fun _ left => left = held)
      (printProgress finalData ctx) held := by
  unfold printProgress
  apply accounts_other_bind (fun _ => rfl)
  intro now
  split
  · apply accounts_other_bind (fun _ => rfl)
    intro _
    split
    · exact accounts_other_bind (fun _ => rfl) fun _ => rfl
    · exact rfl
  · exact rfl

theorem httpDlResponseCb_accounts {rsp : HttpResponse}
    {finalData : HttpFinalCall} (opened : .file ∈ held) :
    Accounts Event.uses (fun _ left => left = held)
      (httpDlResponseCb rsp finalData ctx) held := by
  have prints (ctx : DownloadCtx) :
      Accounts Event.uses (fun _ left => left = held)
        (printProgress finalData ctx >>= fun ctx => pure ((0 : Int), ctx))
        held :=
    printProgress_accounts.bind fun _ _ same => same
  unfold httpDlResponseCb
  dsimp only
  split
  · apply accounts_request_bind
    intro answer
    refine ⟨held, by simp [opened], ?_⟩
    rcases answer with ⟨code, negative⟩ | ⟨written, fits⟩
    · exact rfl
    · exact prints _
  · exact prints _

theorem deliverReports_accounts {reports : List Report}
    (opened : .file ∈ held) :
    Accounts Event.uses (fun _ left => left = held)
      (deliverReports reports ctx) held := by
  induction reports generalizing ctx with
  | nil => exact rfl
  | cons report reports ih =>
      refine (httpDlResponseCb_accounts opened).bind ?_
      rintro result _ rfl
      dsimp only
      split
      · exact rfl
      · exact ih

/-- What is held with the file open and the connection tried: a socket only
where there is one. -/
def HoldsSocket (sock : Int) (left : List Resource) : Prop :=
  if sock < 0 then left = [.file] ∨ left = [.addrinfo, .file]
  else left = [.socket sock, .addrinfo, .file]

theorem httpDlSocketInit_accounts :
    Accounts Event.uses
      (fun result left =>
        (result.1 < 0 → result.2.1 < 0) ∧ HoldsSocket result.2.1 left)
      (httpDlSocketInit hostname port (-1)) [.file] := by
  unfold httpDlSocketInit
  apply accounts_request_bind
  rintro ⟨ret, addr⟩
  by_cases resolved : ret = 0
  · refine ⟨[.addrinfo, .file], by simp [resolved], ?_⟩
    dsimp only
    rw [if_neg (not_not.mpr resolved)]
    apply accounts_request_bind
    intro (sock : Int)
    by_cases noSocket : sock < 0
    · refine ⟨[.addrinfo, .file], by simp [noSocket], ?_⟩
      simp [HoldsSocket, noSocket]
    · refine ⟨[.socket sock, .addrinfo, .file], ?_, ?_⟩
      · simp [noSocket]
      · simp [HoldsSocket, noSocket, resolved]
  · refine ⟨[.file], by simp [resolved], ?_⟩
    dsimp only
    rw [if_pos resolved]
    simp [HoldsSocket]

theorem httpDlSocketConnect_accounts :
    Accounts Event.uses (fun result left => HoldsSocket result.2 left)
      (httpDlSocketConnect hostname port (-1)) [.file] := by
  unfold httpDlSocketConnect
  apply httpDlSocketInit_accounts.bind
  rintro ⟨ret, sock, addr⟩ middle ⟨unresolved, holds⟩
  dsimp only at unresolved holds ⊢
  by_cases noSocket : sock < 0
  · rw [if_pos (.inr noSocket)]
    exact holds
  · rw [if_neg (not_or.mpr ⟨mt unresolved noSocket, noSocket⟩)]
    rw [HoldsSocket, if_neg noSocket] at holds
    subst holds
    apply accounts_request_bind
    intro (connectRet : Int)
    refine ⟨[.socket sock, .addrinfo, .file], by simp, ?_⟩
    split
    · apply accounts_request_bind
      intro _
      refine ⟨[.addrinfo, .file], by simp, ?_⟩
      refine accounts_other_bind (fun _ => rfl) fun errno => ?_
      simp [HoldsSocket]
    · rw [accounts_pure, HoldsSocket, if_neg noSocket]

theorem httpDlGetReq_accounts :
    Accounts Event.uses
      (fun _ left => left = [.file] ∨ left = [.addrinfo, .file])
      (httpDlGetReq req hostname port ctx) [.file] := by
  unfold httpDlGetReq
  apply httpDlSocketConnect_accounts.bind
  rintro ⟨ret, sock⟩ middle holds
  dsimp only at holds ⊢
  by_cases failed : sock < 0
  · rw [if_pos failed]
    rwa [HoldsSocket, if_pos failed] at holds
  · rw [if_neg failed]
    rw [HoldsSocket, if_neg failed] at holds
    subst holds
    have asked : Accounts Event.uses
        (fun _ left => left = [.socket sock, .addrinfo, .file])
        (httpClientReq sock req requestTimeout ctx)
        [.socket sock, .addrinfo, .file] := by
      apply accounts_request_bind
      intro answer
      refine ⟨[.socket sock, .addrinfo, .file], by simp, ?_⟩
      exact (deliverReports_accounts (by simp)).bind fun _ _ same => same
    apply asked.bind
    rintro result _ rfl
    apply accounts_request_bind
    intro _
    exact ⟨[.addrinfo, .file], by simp, .inr rfl⟩

end Request

section Download

variable {fuel : Nat} {hostname port path savePath : CString}

/-- At most the address list is still held when a download returns. -/
theorem httpDlFile_accounts :
    Accounts Event.uses (fun _ left => left = [] ∨ left = [.addrinfo])
      (httpDlFile fuel hostname port path savePath) [] := by
  unfold httpDlFile
  apply accounts_request_bind
  intro (ret : Int)
  by_cases refused : ret < 0
  · refine ⟨[], by simp [refused], ?_⟩
    rw [if_pos refused]
    exact .inl rfl
  refine ⟨[.file], by simp [refused], ?_⟩
  rw [if_neg refused]
  have closes (left : List Resource) (fresh : left = [] ∨ left = [.addrinfo]) :
      Accounts Event.uses (fun _ last => last = [] ∨ last = [.addrinfo])
        (calculateFileSha256 fuel (savedAt savePath) zeroDigest >>= fun result =>
          printSha256Sum result.2 (savedAt savePath) >>= fun _ => pure (0 : Int))
        left := by
    have noFile : .file ∉ left := by rcases fresh with rfl | rfl <;> simp
    have noOperation : .hashOperation ∉ left := by
      rcases fresh with rfl | rfl <;> simp
    apply (calculateFileSha256_accounts noFile noOperation).bind
    rintro result _ rfl
    exact accounts_other_bind (fun _ => rfl) fun _ => fresh
  apply httpDlGetReq_accounts.bind
  rintro result middle (rfl | rfl)
  · refine accounts_request_bind fun _ => ⟨[], by simp, ?_⟩
    exact closes [] (.inl rfl)
  · refine accounts_request_bind fun _ => ⟨[.addrinfo], ?_, ?_⟩
    · simp
    · exact closes [.addrinfo] (.inr rfl)

/-- The only use that acquires the address list is a resolution, and none
releases it. -/
theorem addrinfo_uses (event : Event Call.Answer) :
    (.acquire .addrinfo ∈ Event.uses event ↔ Resolves event) ∧
      .release .addrinfo ∉ Event.uses event := by
  rcases event with ⟨call, answer⟩
  cases call <;> simp only [Event.uses, Resolves]
  case psaHashFinish => split <;> simp
  all_goals first | (split <;> simp [*]) | simp

/-- Nothing frees an address list. -/
theorem count_release_addrinfo (trace : Trace) :
    (trace.flatMap Event.uses).count (.release .addrinfo) = 0 := by
  apply List.count_eq_zero_of_not_mem
  intro member
  obtain ⟨event, -, isUse⟩ := List.mem_flatMap.mp member
  exact (addrinfo_uses event).2 isUse

theorem acquires_addrinfo_iff {trace : Trace} :
    .acquire .addrinfo ∈ trace.flatMap Event.uses ↔
      ∃ event ∈ trace, Resolves event := by
  rw [List.mem_flatMap]
  exact exists_congr fun event =>
    and_congr_right fun _ => (addrinfo_uses event).1

/-- One download: its arguments, the calls it makes, and what it returns. -/
structure Download where
  fuel : Nat
  hostname : CString
  port : CString
  path : CString
  savePath : CString
  trace : Trace
  ret : Int

/-- Downloads one after another, in any environment. -/
def Downloads {World : Type} (env : Environment Call.Answer World) :
    World → Download → World → Prop :=
  fun before download after =>
    Runs env (httpDlFile download.fuel download.hostname download.port
      download.path download.savePath) before download.trace download.ret after

/-- One download releases all it acquired exactly if it resolved no name. -/
theorem releasedOnce_download_iff {World : Type}
    {env : Environment Call.Answer World} {before after : World}
    {download : Download} (runs : Downloads env before download after) :
    ReleasedOnce (download.trace.flatMap Event.uses) ↔
      ∀ event ∈ download.trace, ¬ Resolves event := by
  have unacquired : (∀ event ∈ download.trace, ¬ Resolves event) ↔
      .acquire .addrinfo ∉ download.trace.flatMap Event.uses := by
    rw [acquires_addrinfo_iff]
    simp
  rw [unacquired]
  constructor
  · intro released member
    have acquired := List.count_pos_iff.mpr member
    have balanced : _ = _ := released.ended .addrinfo
    rw [count_release_addrinfo] at balanced
    omega
  · intro notMember
    obtain ⟨left, allowed, rfl | rfl⟩ := httpDlFile_accounts.runs runs
    · exact releasedOnce_of_account allowed
    · -- A list that is still held has been acquired.
      have isHeld : _ = _ := held_of_account allowed (List.mem_singleton_self _)
      rw [List.count_eq_zero_of_not_mem notMember] at isHeld
      omega

/-- Downloads one after another, whatever their calls answer: all resources of
every download are released exactly once if and only if no download resolves a
name. -/
theorem downloads_release_iff {World : Type}
    {env : Environment Call.Answer World} {first last : World}
    {downloads : List Download} :
    EveryStep (Downloads env)
        (fun _ download _ => ReleasedOnce (download.trace.flatMap Event.uses))
        first downloads last ↔
      EveryStep (Downloads env)
        (fun _ download _ => ∀ event ∈ download.trace, ¬ Resolves event)
        first downloads last :=
  everyStep_congr fun _ _ _ runs => releasedOnce_download_iff runs

/-- A download whose name is resolved and whose file is saved keeps the address
list. -/
theorem saving_download_leaks :
    Runs (environment Sha256.hash) (httpDlFile 2 [] [] [] []) (cardWith [])
        shortBody.unchecked 0 { shortBody.loaded (cardWith []) with file := none } ∧
      account (shortBody.unchecked.flatMap Event.uses) [] = some [.addrinfo] ∧
      ¬ ReleasedOnce (shortBody.unchecked.flatMap Event.uses) := by
  refine ⟨shortBody.unchecked_runs, by decide, fun released => ?_⟩
  exact absurd (released.ended .addrinfo) (by unfold Free; decide)

end Download

end HttpDl

end SzpiSta
