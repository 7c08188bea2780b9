import SzpiSta.FatfsListing
import SzpiSta.HeldResources
import SzpiSta.TransitionPaths

/-!
# The card over many boots

Whatever the card answers, `fatfs_init` changes no entry that exists, and adds
its two only to an empty root.  A boot that adds anything leaves an entry behind,
so as long as nobody removes the entries of the root no later boot adds
anything.  Directory and file are given back on every way out.
-/

namespace SzpiSta

namespace Fatfs

open ExternalCalls ExternalCalls.Program CBuffers HeldResources TransitionPaths

/-- The path of the file. -/
def someFilePath : CString := entryPath diskMountPt someFileName

/-- The path of the directory. -/
def someDirPath : CString := entryPath diskMountPt someDirName

/-- A directory without entries. -/
def Empty (path : CString) (world : World) : Prop :=
  ∀ name, IsName name → world.nodes (entryPath path name) = none

/-- No entry has changed, and the new ones are the two of `fatfs_init`. -/
structure AddsOnly (before after : World) : Prop where
  kept : ∀ path node, before.nodes path = some node →
    after.nodes path = some node
  added : ∀ path, before.nodes path = none →
    after.nodes path = none ∨
      (path = someFilePath ∧ after.nodes path = some (.file [])) ∨
      (path = someDirPath ∧ after.nodes path = some .dir)

section Listing

variable {world : World} {path : CString} {fuel : Nat}

/-- `lsdir` returns 0 only for an empty directory. -/
theorem lsdir_zero :
    Ensures environment (lsdir fuel path) world fun _ ret after =>
      after.nodes = world.nodes ∧ (ret = 0 → Empty path world) := by
  refine lsdir_ensures.mono ?_
  rintro trace ret after ⟨nodes, tells, whole⟩
  refine ⟨nodes, ?_⟩
  rintro rfl name isName
  obtain ⟨lists, length⟩ := whole tells.accepted
  have noneListed : entries trace = [] :=
    List.length_eq_zero_iff.mp (Int.natCast_eq_zero.mp length.symm)
  have missing := (lists.complete name isName).not.mp
    (noneListed ▸ List.not_mem_nil)
  exact Option.not_isSome_iff_eq_none.mp missing

end Listing

section Creating

variable {world before after : World} {path : Memory} {fuel : Nat}

theorem AddsOnly.refl (same : after.nodes = before.nodes) :
    AddsOnly before after := by
  constructor
  · intro path node stored
    rw [same]
    exact stored
  · intro path missing
    rw [same]
    exact .inl missing

theorem AddsOnly.trans {middle : World} (first : AddsOnly before middle)
    (second : AddsOnly middle after) : AddsOnly before after := by
  constructor
  · exact fun path node stored => second.kept _ _ (first.kept _ _ stored)
  · intro path missing
    rcases first.added path missing with still | ⟨isFile, stored⟩ | ⟨isDir, stored⟩
    · exact second.added path still
    · exact .inr (.inl ⟨isFile, second.kept _ _ stored⟩)
    · exact .inr (.inr ⟨isDir, second.kept _ _ stored⟩)

/-- One of the two entries is made. -/
theorem AddsOnly.of_adds {made : CString} {node : Node}
    (adds : Adds made node before after)
    (which : (made = someFilePath ∧ node = .file []) ∨
      (made = someDirPath ∧ node = .dir)) : AddsOnly before after := by
  obtain ⟨fresh, rfl⟩ := adds
  constructor
  · intro path other stored
    have apart : path ≠ made := by
      rintro rfl
      rw [fresh] at stored
      cases stored
    exact (Function.update_of_ne apart _ _).trans stored
  · intro path missing
    by_cases same : path = made
    · subst same
      dsimp only
      rw [Function.update_self]
      rcases which with ⟨isFile, rfl⟩ | ⟨isDir, rfl⟩
      · exact .inr (.inl ⟨isFile, rfl⟩)
      · exact .inr (.inr ⟨isDir, rfl⟩)
    · exact .inl ((Function.update_of_ne same _ _).trans missing)

/-- The two entries of the root. -/
theorem createSomeEntries_eq (path : Memory) :
    createSomeEntries path diskMountPt = (do
      let rc ← ask (.fsOpen someFilePath { create := true })
      if rc ≠ 0 then
        return false
      ask .fsClose
      let _ ← ask (.fsMkdir someDirPath)
      return true) := by
  have noNul : 0 ∉ diskMountPt := by decide
  obtain ⟨filePath, dirPath⟩ := some_paths_read noNul (by decide) path
  unfold createSomeEntries
  rw [filePath, dirPath, if_neg (by decide)]
  rfl

theorem createSomeEntries_ensures :
    Ensures environment (createSomeEntries path diskMountPt) world
      fun _ _ after => AddsOnly world after := by
  rw [createSomeEntries_eq]
  simp only [ensures_bind, ensures_request]
  intro rc opened openAnswered
  have opens : AddsOnly world opened := by
    rcases openAnswered with ⟨rfl, -⟩ | ⟨-, adds⟩
    · exact .refl rfl
    · exact .of_adds adds (.inl ⟨rfl, rfl⟩)
  split
  case isTrue => exact ensures_pure.mpr opens
  case isFalse =>
  simp only [ensures_bind, ensures_request, ensures_pure]
  rintro _ _ rfl mkdirRc made mkdirAnswered
  apply opens.trans
  rcases mkdirAnswered with ⟨rfl, -⟩ | adds
  · exact .refl rfl
  · exact .of_adds adds (.inr ⟨rfl, rfl⟩)

/-- What a boot does to the card. -/
theorem fatfsInit_ensures :
    Ensures environment (fatfsInit fuel path) world fun _ _ after =>
      AddsOnly world after ∧
        (after.nodes ≠ world.nodes → Empty diskMountPt world) := by
  unfold fatfsInit
  simp only [ensures_bind, ensures_request]
  intro rc mounted answered
  have notYet : mounted = world := answered
  rw [notYet]
  have unchanged {after : World} (same : after.nodes = world.nodes) :
      AddsOnly world after ∧
        (after.nodes ≠ world.nodes → Empty diskMountPt world) :=
    ⟨.refl same, fun changed => (changed same).elim⟩
  split
  case isTrue => exact ensures_pure.mpr (unchanged rfl)
  case isFalse =>
  rw [ensures_bind]
  refine lsdir_zero.mono ?_
  rintro _ count listed ⟨same, empty⟩
  split
  case isFalse => exact ensures_pure.mpr (unchanged same)
  case isTrue isEmpty =>
  rw [ensures_bind]
  refine createSomeEntries_ensures.mono ?_
  rintro _ created made adds
  have whole : AddsOnly world made := (AddsOnly.refl same).trans adds
  split
  case isFalse => exact ensures_pure.mpr ⟨whole, fun _ => empty isEmpty⟩
  case isTrue =>
  rw [ensures_bind]
  refine lsdir_zero.mono ?_
  rintro _ _ last ⟨lastSame, -⟩
  exact ensures_pure.mpr
    ⟨whole.trans (.refl lastSame), fun _ => empty isEmpty⟩

end Creating

section Handles

variable {path : Memory} {basePath listed : CString} {fuel count : Nat}

/-- What a boot opens. -/
inductive Handle where
  | dirp
  | file
  deriving DecidableEq

/-- The use a call makes of a handle, if it succeeds. -/
@[simp]
def Event.uses : Event Call.Answer → List (Use Handle)
  | ⟨.fsOpendir _, res⟩ => if res ≠ 0 then [] else [.acquire .dirp]
  | ⟨.fsReaddir, _⟩ => [.use .dirp]
  | ⟨.fsClosedir, _⟩ => [.release .dirp]
  | ⟨.fsOpen _ _, rc⟩ => if rc ≠ 0 then [] else [.acquire .file]
  | ⟨.fsClose, _⟩ => [.release .file]
  | ⟨.fsMount, _⟩ | ⟨.fsMkdir _, _⟩ => []

theorem listEntry_accounts :
    Accounts Event.uses (fun _ left => left = [.dirp]) (listEntry count)
      [.dirp] := by
  unfold listEntry
  refine accounts_request_bind fun answer => ⟨[.dirp], by simp, ?_⟩
  dsimp only
  split
  · exact rfl
  · exact rfl

theorem lsdir_accounts :
    Accounts Event.uses (fun _ left => left = []) (lsdir fuel listed) [] := by
  unfold lsdir
  apply accounts_request_bind
  intro (res : Int)
  by_cases failed : res ≠ 0
  · refine ⟨[], by simp [failed], ?_⟩
    rw [if_pos failed]
    exact rfl
  refine ⟨[.dirp], by simp [failed], ?_⟩
  rw [if_neg failed]
  apply (accounts_loop (fun _ => listEntry_accounts) fuel 0).bind
  rintro ⟨res, count⟩ _ rfl
  refine accounts_request_bind fun _ => ⟨[], by simp, ?_⟩
  split
  · exact rfl
  · exact rfl

theorem createSomeEntries_accounts :
    Accounts Event.uses (fun _ left => left = [])
      (createSomeEntries path basePath) [] := by
  unfold createSomeEntries
  split
  · exact rfl
  apply accounts_request_bind
  intro (rc : Int)
  by_cases failed : rc ≠ 0
  · refine ⟨[], by simp [failed], ?_⟩
    rw [if_pos failed]
    exact rfl
  refine ⟨[.file], by simp [failed], ?_⟩
  rw [if_neg failed]
  refine accounts_request_bind fun _ => ⟨[], by simp, ?_⟩
  exact accounts_other_bind (fun _ => rfl) fun _ => rfl

theorem fatfsInit_accounts :
    Accounts Event.uses (fun _ left => left = []) (fatfsInit fuel path) [] := by
  unfold fatfsInit
  apply accounts_other_bind (fun _ => rfl)
  intro rc
  split
  · exact rfl
  apply lsdir_accounts.bind
  rintro count _ rfl
  split
  case isFalse => exact rfl
  case isTrue =>
  apply createSomeEntries_accounts.bind
  rintro created _ rfl
  split
  case isFalse => exact rfl
  case isTrue =>
  apply lsdir_accounts.bind
  rintro _ _ rfl
  exact rfl

/-- A boot gives back the directory and the file, whatever the card answers. -/
theorem boot_gives_handles_back {before after : World} {ret : Int}
    {trace : List (Event Call.Answer)}
    (runs : Runs environment (fatfsInit fuel path) before trace ret after) :
    ReleasedOnce (trace.flatMap Event.uses) := by
  obtain ⟨_, allowed, rfl⟩ := fatfsInit_accounts.runs runs
  exact releasedOnce_of_account allowed

end Handles

section Boots

/-- One boot: the calls that were made, the value, and the world in which
`fatfs_init` ended. -/
structure Boot where
  trace : List (Event Call.Answer)
  ret : Int
  ended : World

/-- Every entry is still there, whatever its content. -/
def Keeps (before after : World) : Prop :=
  ∀ path, (before.nodes path).isSome → (after.nodes path).isSome

/-- A boot, and what happens to the card until the next one.  Entries may be
added and changed, and none is removed. -/
def BootStep (fuel : Nat) (path : Memory) (before : World) (boot : Boot)
    (next : World) : Prop :=
  Runs environment (fatfsInit fuel path) before boot.trace boot.ret boot.ended ∧
    Keeps boot.ended next

/-- The boot adds nothing. -/
def AddsNothing (before : World) (boot : Boot) (_ : World) : Prop :=
  boot.ended.nodes = before.nodes

variable {fuel : Nat} {path : Memory} {before next last : World} {boot : Boot}
variable {later : List Boot}

/-- A root that is not empty stays so, and is not added to. -/
theorem addsNothing_of_notEmpty (step : BootStep fuel path before boot next)
    (notEmpty : ¬ Empty diskMountPt before) :
    AddsNothing before boot next ∧ ¬ Empty diskMountPt next := by
  obtain ⟨adds, onlyEmpty⟩ := fatfsInit_ensures _ _ _ step.1
  have same : boot.ended.nodes = before.nodes := by
    by_contra changed
    exact notEmpty (onlyEmpty changed)
  refine ⟨same, fun empty => notEmpty fun name isName => ?_⟩
  by_contra stored
  have there : (boot.ended.nodes (entryPath diskMountPt name)).isSome := by
    rw [same]
    exact Option.isSome_iff_ne_none.mpr stored
  have still := step.2 _ there
  rw [empty name isName] at still
  cases still

/-- What a boot has added is in the root. -/
theorem notEmpty_of_changed (step : BootStep fuel path before boot next)
    (changed : ¬ AddsNothing before boot next) : ¬ Empty diskMountPt next := by
  obtain ⟨adds, -⟩ := fatfsInit_ensures _ _ _ step.1
  obtain ⟨place, differs⟩ := Function.ne_iff.mp changed
  have fresh : before.nodes place = none := by
    by_contra stored
    obtain ⟨node, found⟩ := Option.ne_none_iff_exists'.mp stored
    rw [found, adds.kept _ _ found] at differs
    exact differs rfl
  have names : IsName someFileName ∧ IsName someDirName := by decide
  intro empty
  have gone (name : CString) (isName : IsName name)
      (there : (boot.ended.nodes (entryPath diskMountPt name)).isSome) :
      False := by
    have still := step.2 _ there
    rw [empty name isName] at still
    cases still
  rcases adds.added place fresh with
    missing | ⟨isFile, stored⟩ | ⟨isDir, stored⟩
  · rw [fresh, missing] at differs
    exact differs rfl
  · refine gone someFileName names.1 ?_
    rw [show entryPath diskMountPt someFileName = place from isFile.symm, stored]
    rfl
  · refine gone someDirName names.2 ?_
    rw [show entryPath diskMountPt someDirName = place from isDir.symm, stored]
    rfl

end Boots

/-- In every sequence of boots between which no entry is removed: a boot changes
no entry, adds its file and its directory to an empty root only, and once a boot
has added anything no later boot does. -/
theorem card_prepared_once {fuel : Nat} {path : Memory} {before next : World}
    {boot : Boot} (step : BootStep fuel path before boot next) :
    AddsOnly before boot.ended ∧
      (¬ AddsNothing before boot next →
        Empty diskMountPt before ∧
          ∀ later last,
            EveryStep (BootStep fuel path) AddsNothing next later last) := by
  obtain ⟨adds, onlyEmpty⟩ := fatfsInit_ensures _ _ _ step.1
  refine ⟨adds, fun changed => ⟨onlyEmpty changed, fun later last => ?_⟩⟩
  exact everyStep_of_invariant (fun world => ¬ Empty diskMountPt world)
    (fun _ _ _ notEmpty step => (addsNothing_of_notEmpty step notEmpty).2)
    (fun _ _ _ notEmpty step => (addsNothing_of_notEmpty step notEmpty).1)
    (notEmpty_of_changed step changed)

section FirstBoot

/-- A card that has just been formatted. -/
def emptyCard : World := ⟨fun _ => none, none⟩

/-- The card with the two entries. -/
def preparedCard : World where
  nodes := Function.update
    (Function.update (fun _ => none) someFilePath (some (.file [])))
    someDirPath (some .dir)
  dirp := none

/-- The first boot, whose second listing fails. -/
def firstBoot : Boot where
  trace := [⟨.fsMount, (0 : Int)⟩, ⟨.fsOpendir diskMountPt, (0 : Int)⟩,
    ⟨.fsReaddir, ((0 : Int), ([] : CString))⟩, ⟨.fsClosedir, ()⟩,
    ⟨.fsOpen someFilePath { create := true }, (0 : Int)⟩, ⟨.fsClose, ()⟩,
    ⟨.fsMkdir someDirPath, (0 : Int)⟩,
    ⟨.fsOpendir diskMountPt, (-5 : Int)⟩]
  ret := 0
  ended := preparedCard

theorem lists_nothing : Lists emptyCard.nodes diskMountPt [] :=
  ⟨.nil, nofun, fun _ _ => by simp [emptyCard]⟩

/-- An array of zeros. -/
def clearPath : Memory := fun _ => 0

theorem firstBoot_runs :
    Runs environment (fatfsInit 1 clearPath) emptyCard firstBoot.trace
      firstBoot.ret firstBoot.ended := by
  unfold fatfsInit
  simp only [createSomeEntries_eq]
  apply Runs.call
  · exact rfl
  apply Runs.call
  · exact ⟨[], lists_nothing, rfl⟩
  apply Runs.call
  · exact ⟨[], rfl, rfl, rfl⟩
  apply Runs.call
  · exact rfl
  apply Runs.call
  · exact .inr ⟨rfl, rfl, rfl⟩
  apply Runs.call
  · exact rfl
  apply Runs.call
  · exact .inr ⟨rfl, rfl⟩
  apply Runs.call
  · exact rfl
  exact .done _ _

theorem first_boot_gives_handles_back :
    ReleasedOnce (firstBoot.trace.flatMap Event.uses) :=
  boot_gives_handles_back firstBoot_runs

theorem first_boot_prepares_card :
    Empty diskMountPt emptyCard ∧ ∀ later last,
      EveryStep (BootStep 1 clearPath) AddsNothing preparedCard later last := by
  have step : BootStep 1 clearPath emptyCard firstBoot preparedCard :=
    ⟨firstBoot_runs, fun _ there => there⟩
  have changed : ¬ AddsNothing emptyCard firstBoot preparedCard := by
    intro same
    have stored : preparedCard.nodes someDirPath = none :=
      congrFun same someDirPath
    exact absurd stored (by decide)
  exact (card_prepared_once step).2 changed

end FirstBoot

end Fatfs

end SzpiSta
