import SzpiSta.UpgradeImage

/-!
# What an upgrade erases and where it writes

The erase size is the file size rounded up to whole sectors in 32 bits.  The
writes follow one another from the start and end with the file, so they stay in
the erased range as long as the rounding does not wrap.
-/

namespace SzpiSta

namespace Upgrade

open ExternalCalls ExternalCalls.Program

abbrev FlashWrite := UInt32 × List UInt8

def Call.write : Call → Option FlashWrite
  | .flashAreaWrite _ offset data => some (offset, data)
  | _ => none

def writesOf (trace : Trace) : List FlashWrite :=
  trace.filterMap fun event => event.call.write

/-- Each write begins where the one before it ended, from `start` to `stop`. -/
inductive Contiguous : Nat → List FlashWrite → Nat → Prop where
  | nil (position : Nat) : Contiguous position [] position
  | cons {offset : UInt32} {data : List UInt8} {writes : List FlashWrite}
      {stop : Nat}
      (rest : Contiguous (offset.toNat + data.length) writes stop) :
      Contiguous offset.toNat ((offset, data) :: writes) stop

/-- The range was erased earlier in the same partition. -/
def ErasedIn (earlier : Trace) (id : UInt8) (stop : Nat) : Prop :=
  ∃ size rc, (⟨.flashAreaErase id 0 size, rc⟩ : Event Call.Answer) ∈ earlier ∧
    (0 : Int) ≤ rc ∧ stop ≤ size.toNat

/-- A file size rounded up to whole sectors. -/
def roundedUp (fileSize : Nat) : Nat := (fileSize + 4095) / 4096 * 4096

/-- What is asked of an upgrade with a file of this size. -/
structure WritesWhatItErased (fileSize : UInt32) (trace : Trace) : Prop where
  erases : ∀ id offset size rc,
    (⟨.flashAreaErase id offset size, rc⟩ : Event Call.Answer) ∈ trace →
    offset = 0 ∧ size.toNat = roundedUp fileSize.toNat
  inside : ∀ earlier id offset data rc later,
    trace = earlier ++
      (⟨.flashAreaWrite id offset data, rc⟩ : Event Call.Answer) :: later →
    ErasedIn earlier id (offset.toNat + data.length)
  contiguous : ∃ stop, Contiguous 0 (writesOf trace) stop ∧
    stop ≤ fileSize.toNat
  noOverflow : ∀ write ∈ writesOf trace,
    (write.1 + UInt32.ofNat write.2.length).toNat =
      write.1.toNat + write.2.length

section Rounding

variable {fileSize : UInt32}

/-- The mask clears the low twelve bits. -/
theorem and_sectorMask (size : UInt32) :
    (size &&& ~~~4095).toNat = size.toNat / 4096 * 4096 := by
  have mask : (~~~4095 : UInt32).toNat = (2 ^ 20 - 1) <<< 12 := by decide
  have sectors : size.toNat / 4096 * 4096 = (size.toNat >>> 12) <<< 12 := by
    rw [Nat.shiftRight_eq_div_pow, Nat.shiftLeft_eq]
  rw [UInt32.toNat_and, mask, sectors]
  apply Nat.eq_of_testBit_eq
  intro bit
  simp only [Nat.testBit_and, Nat.testBit_shiftLeft, Nat.testBit_shiftRight,
    Nat.testBit_two_pow_sub_one]
  by_cases low : 12 ≤ bit
  · have position : 12 + (bit - 12) = bit := by omega
    by_cases inside : bit - 12 < 20
    · simp [low, inside, position]
    · have high : size.toNat.testBit bit = false := by
        refine Nat.testBit_lt_two_pow (Nat.lt_of_lt_of_le size.toNat_lt ?_)
        exact Nat.pow_le_pow_right (by decide) (by omega)
      simp [position, high]
  · simp [low]

theorem eraseSize_toNat (fileSize : UInt32) :
    (eraseSize fileSize).toNat =
      (fileSize.toNat + 4095) % UInt32.size / 4096 * 4096 := by
  rw [eraseSize, and_sectorMask, UInt32.toNat_add]
  rfl

theorem eraseSize_eq_iff :
    (eraseSize fileSize).toNat = roundedUp fileSize.toNat ↔
      fileSize.toNat + 4095 < UInt32.size := by
  have := fileSize.toNat_lt
  rw [eraseSize_toNat, roundedUp]
  have limit : UInt32.size = 4294967296 := rfl
  rw [limit]
  omega

theorem le_roundedUp (size : Nat) : size ≤ roundedUp size := by
  unfold roundedUp
  omega

end Rounding

section Contiguity

variable {start stop : Nat} {writes : List FlashWrite}

theorem Contiguous.append {offset : UInt32} {data : List UInt8}
    (contiguous : Contiguous start writes offset.toNat) :
    Contiguous start (writes ++ [(offset, data)])
      (offset.toNat + data.length) := by
  generalize position : offset.toNat = middle at contiguous
  induction contiguous with
  | nil => exact position ▸ .cons (.nil _)
  | cons rest ih => exact .cons (ih position)

theorem Contiguous.start_le (contiguous : Contiguous start writes stop) :
    start ≤ stop := by
  induction contiguous with
  | nil => exact Nat.le_refl _
  | cons rest ih => omega

theorem Contiguous.end_le {write : FlashWrite}
    (contiguous : Contiguous start writes stop) (member : write ∈ writes) :
    write.1.toNat + write.2.length ≤ stop := by
  induction contiguous with
  | nil => cases member
  | cons rest ih =>
      rcases List.mem_cons.mp member with rfl | member
      · exact rest.start_le
      · exact ih member

end Contiguity

section Runs

variable {parts : Partitions} {id : UInt8} {fileSize writeOffset : UInt32}
variable {trace : Trace} {world : World}

@[simp]
theorem writesOf_append (first second : Trace) :
    writesOf (first ++ second) = writesOf first ++ writesOf second :=
  List.filterMap_append

theorem writesOf_eq_nil (noWrite : ∀ event ∈ trace, event.call.write = none) :
    writesOf trace = [] :=
  List.filterMap_eq_nil_iff.mpr noWrite

theorem mem_writesOf {target : UInt8} {offset : UInt32} {data : List UInt8}
    {rc : Int}
    (member : (⟨.flashAreaWrite target offset data, rc⟩ :
      Event Call.Answer) ∈ trace) : (offset, data) ∈ writesOf trace :=
  List.mem_filterMap.mpr ⟨_, member, rfl⟩

/-- The loop invariant: the writes reach from the start to the write offset. -/
def CopiedTo (fileSize writeOffset : UInt32) (trace : Trace) : Prop :=
  Contiguous 0 (writesOf trace) writeOffset.toNat ∧
    writeOffset.toNat ≤ fileSize.toNat

/-- The writes follow one another and end with the file at the latest. -/
def EndsInFile (fileSize : UInt32) (trace : Trace) : Prop :=
  ∃ stop, Contiguous 0 (writesOf trace) stop ∧ stop ≤ fileSize.toNat

theorem copyChunk_contiguous (copied : CopiedTo fileSize writeOffset trace) :
    Ensures (environment parts) (copyChunk id fileSize writeOffset) world
      fun more step _ => step.Meets
        (fun next => CopiedTo fileSize next (trace ++ more))
        (fun _ => EndsInFile fileSize (trace ++ more)) := by
  obtain ⟨contiguous, within⟩ := copied
  unfold copyChunk
  split
  case isFalse complete =>
    rw [ensures_pure, List.append_nil]
    exact ⟨_, contiguous, within⟩
  case isTrue before =>
  simp only [ensures_bind, ensures_request]
  rintro (⟨bytesRead, negative⟩ | ⟨bytes, fits⟩) middle -
  · rw [ensures_pure]
    refine ⟨_, ?_, within⟩
    simpa [writesOf, Call.write] using contiguous
  dsimp only
  split
  case isTrue nothing =>
    rw [ensures_pure]
    refine ⟨_, ?_, within⟩
    simpa [writesOf, Call.write] using contiguous
  case isFalse something =>
  obtain ⟨sum, inFile⟩ := writeOffset_add before fits
  have more (rc : Int) (count : UInt32) (answer : (Call.fsRead count).Answer) :
      writesOf (trace ++ ([⟨.fsRead count, answer⟩] ++
        [⟨.flashAreaWrite id writeOffset bytes, rc⟩])) =
        writesOf trace ++ [(writeOffset, bytes)] := by
    simp [writesOf, Call.write]
  simp only [ensures_bind, ensures_request]
  rintro (rc : Int) after -
  split
  case isTrue failed =>
    rw [ensures_pure, List.append_nil]
    exact ⟨_, more rc _ _ ▸ contiguous.append, inFile⟩
  case isFalse wrote =>
    rw [ensures_pure, List.append_nil]
    refine ⟨?_, sum ▸ inFile⟩
    rw [more, sum]
    exact contiguous.append

theorem copyFile_contiguous :
    Ensures (environment parts) (copyFile id fileSize) world
      fun trace _ _ => EndsInFile fileSize trace :=
  ensures_loop (fun writeOffset trace _ => CopiedTo fileSize writeOffset trace)
    (fun _ _ _ copied => copyChunk_contiguous copied) _
    ⟨.nil 0, Nat.zero_le _⟩

theorem write_of_madeByCleanup {call : Call} (made : MadeByCleanup id call) :
    call.write = none := by
  cases call <;> first | exact made.elim | rfl

theorem cleanup_writes {readBuf : Bool} {rc : Int} :
    Ensures (environment parts) (cleanup id readBuf rc) world
      fun trace _ _ => writesOf trace = [] ∧
        ∀ event ∈ trace, MadeAfterErase id event.call := by
  intro trace result after runs
  have made := runs.issued cleanup_issues
  exact ⟨writesOf_eq_nil fun event member =>
    write_of_madeByCleanup (made event member),
    fun event member => madeAfterErase_of_madeByCleanup (made event member)⟩

/-- The erase comes first, and nothing is written if it failed. -/
structure ErasesFirst (id : UInt8) (fileSize : UInt32) (rc : Int)
    (rest : Trace) : Prop where
  made : ∀ event ∈ rest, MadeAfterErase id event.call
  endsInFile : EndsInFile fileSize rest
  erased : rc < 0 → writesOf rest = []

theorem writeOpenedFile_erases :
    Ensures (environment parts) (writeOpenedFile id fileSize) world
      fun trace _ _ => ∃ rc rest,
        trace = ⟨.flashAreaErase id 0 (eraseSize fileSize), rc⟩ :: rest ∧
          ErasesFirst id fileSize rc rest := by
  have nothing {rest : Trace} (none : writesOf rest = []) :
      EndsInFile fileSize rest := ⟨0, none ▸ .nil 0, Nat.zero_le _⟩
  intro trace rc after runs
  cases openedRun_of_runs runs with
  | eraseFails failed erase closes =>
      have quiet := cleanup_writes _ _ _ closes
      exact ⟨_, _, rfl, quiet.2, nothing quiet.1, fun _ => quiet.1⟩
  | noBuffer erasedOk erase refused closes =>
      have quiet := cleanup_writes _ _ _ closes
      refine ⟨_, _, rfl, ?_, nothing ?_, fun failed => (erasedOk failed).elim⟩
      · intro event member
        rcases List.mem_cons.mp member with rfl | member
        · trivial
        · exact quiet.2 event member
      · exact quiet.1
  | copies erasedOk erase given copyRuns closes =>
      have quiet := cleanup_writes _ _ _ closes
      obtain ⟨stop, contiguous, inFile⟩ := copyFile_contiguous _ _ _ copyRuns
      have copyMade := copyRuns.issued
        (issues_loop (fun _ => copyChunk_issues) _ _)
      refine ⟨_, _, rfl, ?_, ⟨stop, ?_, inFile⟩,
        fun failed => (erasedOk failed).elim⟩
      · intro event member
        rcases List.mem_cons.mp member with rfl | member
        · trivial
        · rcases List.mem_append.mp member with member | member
          · exact copyMade event member
          · exact quiet.2 event member
      · rename_i copying closing _
        have same : writesOf (⟨.kMalloc chunkSize, true⟩ ::
            (copying ++ closing)) = writesOf copying := by
          have split := writesOf_append copying closing
          rw [quiet.1, List.append_nil] at split
          exact split
        rw [same]
        exact contiguous

end Runs

section WholeUpgrade

variable {id : UInt8} {fileSize : UInt32} {front rest trace : Trace} {rc : Int}

/-- With no write among the first events, they come before every write. -/
theorem mem_before_write {event : Event Call.Answer} {earlier later : Trace}
    {target : UInt8} {offset : UInt32} {data : List UInt8} {writeRc : Int}
    (split : front ++ rest = earlier ++
      (⟨.flashAreaWrite target offset data, writeRc⟩ : Event Call.Answer) ::
        later)
    (noWrite : ∀ event ∈ front, event.call.write = none)
    (member : event ∈ front) : event ∈ earlier := by
  rcases List.append_eq_append_iff.mp split with
    ⟨more, rfl, -⟩ | ⟨more, rfl, tail⟩
  · exact List.mem_append_left _ member
  · cases more with
    | nil => simpa using member
    | cons head more =>
        obtain ⟨rfl, -⟩ := List.cons.inj tail
        cases noWrite _ (List.mem_append_right _ List.mem_cons_self)

theorem write_of_flashTarget {call : Call} (quiet : call.flashTarget = none) :
    call.write = none := by
  cases call <;> first | rfl | cases quiet

theorem write_target {target : UInt8} {offset : UInt32} {data : List UInt8}
    {writeRc : Int} (first : ErasesFirst id fileSize rc rest)
    (member : (⟨.flashAreaWrite target offset data, writeRc⟩ :
      Event Call.Answer) ∈ rest) : target = id ∧ 0 ≤ rc := by
  refine ⟨first.made _ member, ?_⟩
  by_contra failed
  have written := mem_writesOf member
  rw [first.erased (Int.not_le.mp failed)] at written
  cases written

/-- The writes of an upgrade are those after its erase. -/
theorem writesOf_opened
    (quiet : ∀ event ∈ front, event.call.flashTarget = none) (size : UInt32) :
    writesOf (front ++ ⟨.flashAreaErase id 0 size, rc⟩ :: rest) =
      writesOf rest := by
  have none := writesOf_eq_nil fun event member =>
    write_of_flashTarget (quiet event member)
  rw [writesOf_append, none]
  rfl

theorem writesWhatItErased_of_opened
    (quiet : ∀ event ∈ front, event.call.flashTarget = none)
    (first : ErasesFirst id fileSize rc rest)
    (fits : fileSize.toNat + 4095 < UInt32.size) :
    WritesWhatItErased fileSize
      (front ++ ⟨.flashAreaErase id 0 (eraseSize fileSize), rc⟩ :: rest) := by
  have rounded := eraseSize_eq_iff.mpr fits
  have noWrite : ∀ event ∈ front ++
      [(⟨.flashAreaErase id 0 (eraseSize fileSize), rc⟩ : Event Call.Answer)],
      event.call.write = none := by
    intro event member
    rcases List.mem_append.mp member with member | member
    · exact write_of_flashTarget (quiet event member)
    · rw [List.mem_singleton.mp member]
      rfl
  obtain ⟨stop, contiguous, inFile⟩ := first.endsInFile
  refine ⟨?_, ?_, ⟨stop, ?_, inFile⟩, ?_⟩
  · intro target offset size eraseRc member
    rcases List.mem_append.mp member with member | member
    · cases quiet _ member
    · rcases List.mem_cons.mp member with same | member
      · cases same
        exact ⟨rfl, rounded⟩
      · exact (first.made _ member).elim
  · intro earlier target offset data writeRc later split
    rw [List.append_cons] at split
    have written : (⟨.flashAreaWrite target offset data, writeRc⟩ :
        Event Call.Answer) ∈ rest := by
      have member := split ▸ List.mem_append_right earlier List.mem_cons_self
      rcases List.mem_append.mp member with member | member
      · cases noWrite _ member
      · exact member
    obtain ⟨rfl, erasedOk⟩ := write_target first written
    refine ⟨eraseSize fileSize, rc, mem_before_write split noWrite ?_,
      erasedOk, ?_⟩
    · exact List.mem_append_right _ (List.mem_singleton_self _)
    · have inside := contiguous.end_le (mem_writesOf written)
      rw [rounded]
      exact Nat.le_trans (Nat.le_trans inside inFile) (le_roundedUp _)
  · rw [writesOf_opened quiet]
    exact contiguous
  · rw [writesOf_opened quiet]
    intro write member
    have inside := contiguous.end_le member
    have := fileSize.toNat_lt
    rw [UInt32.toNat_add, UInt32.toNat_ofNat']
    omega

/-- An upgrade that erases nothing writes nothing either. -/
theorem writesWhatItErased_of_quiet
    (quiet : ∀ event ∈ trace, event.call.flashTarget = none) :
    WritesWhatItErased fileSize trace := by
  have none := writesOf_eq_nil fun event member =>
    write_of_flashTarget (quiet event member)
  refine ⟨?_, ?_, ⟨0, none ▸ .nil 0, Nat.zero_le _⟩, ?_⟩
  · intro target offset size eraseRc member
    cases quiet _ member
  · intro earlier target offset data writeRc later split
    cases quiet _ (split ▸ List.mem_append_right earlier List.mem_cons_self)
  · intro write member
    rw [none] at member
    cases member

/-- Once file and partition are open, only the rounding can go wrong. -/
theorem opened_iff (quiet : ∀ event ∈ front, event.call.flashTarget = none)
    (first : ErasesFirst id fileSize rc rest) :
    WritesWhatItErased fileSize
        (front ++ ⟨.flashAreaErase id 0 (eraseSize fileSize), rc⟩ :: rest) ↔
      fileSize.toNat + 4095 < UInt32.size := by
  constructor
  · intro writes
    have erase : (⟨.flashAreaErase id 0 (eraseSize fileSize), rc⟩ :
        Event Call.Answer) ∈ front ++ _ :: rest :=
      List.mem_append_right front List.mem_cons_self
    exact eraseSize_eq_iff.mp (writes.erases _ _ _ _ erase).2
  · exact writesWhatItErased_of_opened quiet first

/-- An upgrade erases and writes what it should unless the file is so large
that rounding its size up to a sector leaves 32 bits. -/
theorem writes_what_it_erased_iff (parts : Partitions) (path : CString)
    (id : UInt8) (before : World) :
    Ensures (environment parts) (writeOtaFileToPartition path id) before
      fun trace _ _ => ∀ entry, before.files path = some entry →
        (WritesWhatItErased entry.stat.size trace ↔
          (∃ event ∈ trace, Refuses event) ∨
            entry.stat.size.toNat + 4095 < UInt32.size) := by
  refine writeOta_cases.mono fun trace rc after cases entry found => ?_
  rcases cases with ⟨-, refused, quiet⟩ |
    ⟨entry', opening, rest, found', -, -, quiet, rfl, runs⟩
  · exact iff_of_true (writesWhatItErased_of_quiet quiet) (.inl refused)
  obtain rfl : entry' = entry := Option.some.inj (found'.symm.trans found)
  obtain ⟨eraseRc, rest, rfl, first⟩ := writeOpenedFile_erases _ _ _ runs
  rw [opened_iff (fun event member => (quiet event member).2) first]
  refine (or_iff_right ?_).symm
  rintro ⟨event, member, refuses⟩
  rcases List.mem_append.mp member with member | member
  · exact (quiet event member).1 refuses
  rcases List.mem_cons.mp member with rfl | member
  · exact refuses
  · have made := madeAfterOpening_of_madeAfterErase (first.made _ member)
    exact not_refuses_of_madeAfterOpening made refuses

end WholeUpgrade

section OneByte

variable (parts : Partitions) (id : UInt8)
variable {fileSize : UInt32} {byte : UInt8} {more : List UInt8} {world : World}

/-- A copy that writes one byte and then meets a read error. -/
theorem copyFile_runs_one_byte (large : 1 < fileSize.toNat)
    (atStart : world.file = some (byte :: more, 0)) :
    ∃ trace after, Runs (environment parts) (copyFile id fileSize) world trace
      (some (-eIo)) after ∧ writesOf trace = [(0, [byte])] := by
  have first : (0 : UInt32) < fileSize := by
    rw [UInt32.lt_iff_toNat_lt]
    exact Nat.lt_of_succ_lt large
  have second : (0 : UInt32) + UInt32.ofNat [byte].length < fileSize := by
    rw [UInt32.lt_iff_toNat_lt]
    exact large
  have fits : [byte].length ≤ (min chunkSize (fileSize - 0)).toNat := by
    rw [bytesToRead_toNat first, List.length_singleton, UInt32.toNat_zero]
    omega
  have reads : (environment parts).answers world
      (.fsRead (min chunkSize (fileSize - 0))) (ReadAnswer.data [byte] fits)
      { world with file := some (byte :: more, 1) } :=
    ⟨_, 0, atStart, ⟨rfl, by simp⟩, rfl⟩
  have turn : ∃ trace after,
      Runs (environment parts) (copyChunk id fileSize 0) world trace
        (.again (0 + UInt32.ofNat [byte].length)) after ∧
        writesOf trace = [(0, [byte])] := by
    unfold copyChunk
    rw [if_pos first]
    exact ⟨_, _, .call _ reads
      (.call (0 : Int) (write_storing parts id) (.done _ _)), rfl⟩
  obtain ⟨turnTrace, middle, turn, wrote⟩ := turn
  have last : ∃ trace, Runs (environment parts)
      (copyChunk id fileSize (0 + UInt32.ofNat [byte].length)) middle trace
        (.leave (some (-eIo))) middle ∧ writesOf trace = [] := by
    unfold copyChunk
    rw [if_pos second]
    refine ⟨[⟨.fsRead (min chunkSize (fileSize - (0 + 1))),
      ReadAnswer.error (-eIo) (by decide)⟩], ?_, rfl⟩
    apply Runs.call
    · exact rfl
    exact .done _ _
  obtain ⟨lastTrace, last, quiet⟩ := last
  have fuel : fileSize.toNat + 1 = fileSize.toNat - 1 + 1 + 1 := by omega
  unfold copyFile
  rw [fuel]
  refine ⟨_, _, turn.loop_again last.loop_leave, ?_⟩
  simp [wrote, quiet]

theorem writeOta_runs_one_byte {path : CString} {stat : FsDirent}
    (found : world.files path = some ⟨stat, byte :: more⟩)
    (regular : stat.type = .file) (large : 1 < stat.size.toNat) :
    ∃ opening rest rc after,
      Runs (environment parts) (writeOtaFileToPartition path id) world
        (opening ++ ⟨.flashAreaErase id 0 (eraseSize stat.size), (0 : Int)⟩ ::
          rest) rc after ∧ writesOf rest = [(0, [byte])] := by
  have usable : ¬ (stat.type ≠ .file ∨ stat.size = 0) := by
    rintro (irregular | empty)
    · exact irregular regular
    · simp [empty] at large
  let opened : World := { world with file := some (byte :: more, 0) }
  let erased : World := opened.erasing id (eraseSize stat.size).toNat
  have atStart : erased.file = some (byte :: more, 0) := rfl
  obtain ⟨copyTrace, copied, copyRuns, wrote⟩ :=
    copyFile_runs_one_byte parts id large atStart
  have closing : ∃ trace after,
      Runs (environment parts) (cleanup id true (-eIo)) copied trace (-eIo)
        after := cleanup_runs parts id (-eIo)
  obtain ⟨closeTrace, after, closeRuns⟩ := closing
  have quiet := (cleanup_writes _ _ _ closeRuns).1
  have openedRuns : Runs (environment parts)
      (writeOpenedFile id stat.size) opened
      (⟨.flashAreaErase id 0 (eraseSize stat.size), (0 : Int)⟩ ::
        ⟨.kMalloc chunkSize, true⟩ :: (copyTrace ++ closeTrace)) (-eIo)
      after := by
    apply Runs.call
    · exact erase_erasing parts id _
    apply Runs.call
    · exact rfl
    exact copyRuns.bind closeRuns
  have stats : (environment parts).answers world (.fsStat path)
      ((0 : Int), stat) world := ⟨rfl, fun _ => by simp [found]⟩
  have opens : (environment parts).answers world
      (.fsOpen path { read := true }) (0 : Int) opened := ⟨_, found, rfl⟩
  refine ⟨[⟨.fsStat path, ((0 : Int), stat)⟩, ⟨.flashAreaOpen id, (0 : Int)⟩,
    ⟨.fsOpen path { read := true }, (0 : Int)⟩],
    ⟨.kMalloc chunkSize, true⟩ :: (copyTrace ++ closeTrace), -eIo, after,
    .call _ stats ?_, ?_⟩
  · dsimp only [Program.bind]
    rw [if_neg (by decide : ¬ (0 : Int) < 0), if_neg usable]
    apply Runs.call
    · exact rfl
    apply Runs.call
    · exact opens
    exact openedRuns
  · have rest := writesOf_append copyTrace closeTrace
    rw [wrote, quiet] at rest
    exact rest

end OneByte

/-- Every path names a file one byte into the last sector below 4 GiB. -/
def lastSectorWorld : World where
  running := .slot1
  files := fun _ => some ⟨⟨.file, 0xfffff001⟩, List.replicate 0xfffff001 0⟩
  file := none
  flash := fun _ _ => 0

theorem lastSector_found (path : CString) :
    lastSectorWorld.files path =
      some ⟨⟨.file, 0xfffff001⟩, 0 :: List.replicate 0xfffff000 0⟩ := rfl

/-- Nothing is erased, and the first byte is written all the same, before a read
error ends the copy. -/
theorem lastSector_written_unerased : ∃ opening rest rc after,
    Runs (environment ⟨1, 2, by decide⟩)
        (writeOtaFileToPartition (cString "1.img") 1) lastSectorWorld
        (opening ++ ⟨.flashAreaErase 1 0 0, (0 : Int)⟩ :: rest) rc after ∧
      writesOf rest = [(0, [0])] ∧
      ¬ WritesWhatItErased 0xfffff001
        (opening ++ ⟨.flashAreaErase 1 0 0, (0 : Int)⟩ :: rest) := by
  obtain ⟨opening, rest, rc, after, runs, wrote⟩ :=
    writeOta_runs_one_byte ⟨1, 2, by decide⟩ 1
      (lastSector_found (cString "1.img")) rfl (by decide)
  have nothing : eraseSize 0xfffff001 = 0 := by decide
  rw [nothing] at runs
  refine ⟨opening, rest, rc, after, runs, wrote, fun writes => ?_⟩
  have erase := writes.erases _ _ _ _
    (List.mem_append_right opening List.mem_cons_self)
  exact absurd erase.2 (by decide)

end Upgrade

end SzpiSta
