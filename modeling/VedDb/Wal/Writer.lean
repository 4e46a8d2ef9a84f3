import VedDb.Wal.Directory

/-!
# Writing the log

`WalWriter` of `wal/writer.rs`: opening a directory, appending, rotating to a new file, flushing
and compacting.  The writer is modelled together with the directory it writes into.  The files take
every write; what may be lost in a crash is the end of the open file that was not yet flushed.
-/

namespace VedDb

open LittleEndian (Bytes)

inductive FsyncPolicy where
  | always
  | everySecond
  | disabled
  deriving DecidableEq

structure WalConfig where
  fsyncPolicy : FsyncPolicy
  maxFileSize : Nat
  deriving DecidableEq

def WalConfig.default : WalConfig :=
  { fsyncPolicy := .everySecond, maxFileSize := 100 * 1024 * 1024 }

/-- `WalWriter` and its directory.  `file` is the number of the file the `BufWriter` is open on,
`fileNumber` the counter new files are numbered from, and `unsynced` the number of bytes at the end
of the open file written since the last flush. -/
structure WalWriter where
  config : WalConfig
  dir : WalDir
  file : Nat
  unsynced : Nat
  currentSequence : Nat
  currentFileSize : Nat
  fileNumber : Nat
  deriving DecidableEq

namespace WalWriter

/-! ## Opening a directory -/

section

variable (codec : WalCodec)

/-- The loop of `scan_file_for_max_sequence`. -/
def scanResults : List (Except WalError WalEntry) → Nat → Nat
  | [], maxSeq => maxSeq
  | .ok entry :: results, maxSeq => scanResults results (max maxSeq entry.sequence)
  | .error (.corruptedEntry seq) :: results, maxSeq => scanResults results (max maxSeq seq)
  | .error _ :: _, maxSeq => maxSeq

def scanFileForMaxSequence (content : Bytes) : Nat :=
  scanResults (WalReader.fileResults codec content) 0

/-- `scan_existing_wals`: the next sequence number and the highest file number. -/
def scanExistingWals (dir : WalDir) : Nat × Nat :=
  let (globalMaxSequence, maxFileNumber) := dir.foldl
    (fun acc file =>
      (max acc.1 (scanFileForMaxSequence codec file.content), max acc.2 file.number)) (0, 0)
  let nextSequence := if globalMaxSequence > 0 then (globalMaxSequence + 1) % 2 ^ 64 else 0
  (nextSequence, maxFileNumber)

/-- `WalWriter::new` on a directory with the given files. -/
def new (config : WalConfig) (dir : WalDir) : WalWriter :=
  let (sequence, fileNumber) := scanExistingWals codec dir
  let dir := dir.create fileNumber
  { config := config
    dir := dir
    file := fileNumber
    unsynced := 0
    currentSequence := sequence
    currentFileSize := dir.fileSize fileNumber
    fileNumber := fileNumber }

end

/-! ## Appending -/

/-- `flush`: the buffer is written out and synced. -/
def flush (w : WalWriter) : WalWriter := { w with unsynced := 0 }

/-- `current_sequence.fetch_add(1)`. -/
def fetchSequence (w : WalWriter) : WalWriter :=
  { w with currentSequence := (w.currentSequence + 1) % 2 ^ 64 }

def shouldRotate (w : WalWriter) (nextEntrySize : Nat) : Bool :=
  w.currentFileSize + nextEntrySize > w.config.maxFileSize

/-- `file_number.fetch_add(1)`. -/
def fetchFileNumber (w : WalWriter) : WalWriter :=
  { w with fileNumber := (w.fileNumber + 1) % 2 ^ 64 }

def openFile (w : WalWriter) (number : Nat) : WalWriter := { w with dir := w.dir.create number }

/-- `*file = BufWriter::new(new_file)`; dropping the old buffer writes it out. -/
def installFile (w : WalWriter) (number : Nat) : WalWriter :=
  { w with file := number, unsynced := 0 }

/-- `current_file_size.store(0)`. -/
def resetFileSize (w : WalWriter) : WalWriter := { w with currentFileSize := 0 }

def rotateFile (w : WalWriter) : WalWriter :=
  let w := w.flush.fetchFileNumber
  ((w.openFile w.fileNumber).installFile w.fileNumber).resetFileSize

/-- The critical section of `append`: write the frame and, under `Always`, sync it. -/
def writeFrame (w : WalWriter) (bytes : Bytes) : WalWriter :=
  let w := { w with
    dir := w.dir.modify w.file (· ++ bytes)
    unsynced := w.unsynced + bytes.length }
  if w.config.fsyncPolicy = .always then w.flush else w

/-- `current_file_size.fetch_add(bytes.len())`. -/
def growFileSize (w : WalWriter) (n : Nat) : WalWriter :=
  { w with currentFileSize := w.currentFileSize + n }

variable (codec : WalCodec)

/-- The entry `append` builds: a new one, given its checksum. -/
def sealEntry (sequence : Nat) (now : DateTime) (operation : Operation) :
    Except WalError WalEntry :=
  let entry := WalEntry.new sequence now operation
  match codec.computeChecksum entry with
  | .error e => .error e
  | .ok checksum => .ok { entry with checksum := checksum }

def append (w : WalWriter) (now : DateTime) (operation : Operation) :
    Except WalError Nat × WalWriter :=
  let sequence := w.currentSequence
  let w := w.fetchSequence
  match sealEntry codec sequence now operation with
  | .error e => (.error e, w)
  | .ok entry =>
    match codec.serializeEntry entry with
    | .error e => (.error e, w)
    | .ok bytes =>
      let w := if w.shouldRotate bytes.length then w.rotateFile else w
      (.ok sequence, (w.writeFrame bytes).growFileSize bytes.length)

/-! ## Compaction -/

/-- The loop of `file_contains_only_entries_before`. -/
def onlyEntriesBefore (beforeSequence : Nat) :
    List (Except WalError WalEntry) → Except WalError Bool
  | [] => .ok true
  | .ok entry :: results =>
    if entry.sequence ≥ beforeSequence then .ok false
    else onlyEntriesBefore beforeSequence results
  | .error (.corruptedEntry seq) :: results =>
    if seq ≥ beforeSequence then .ok false else onlyEntriesBefore beforeSequence results
  | .error _ :: _ => .error (.ioError .invalidData)

def fileContainsOnlyEntriesBefore (content : Bytes) (beforeSequence : Nat) :
    Except WalError Bool :=
  onlyEntriesBefore beforeSequence (WalReader.fileResults codec content)

/-- Whether `compact` removes a file. -/
def removable (w : WalWriter) (beforeSequence : Nat) (file : WalFile) : Bool :=
  file.number < w.fileNumber &&
    match fileContainsOnlyEntriesBefore codec file.content beforeSequence with
    | .ok onlyBefore => onlyBefore
    | .error _ => false

/-- `compact`: the number of removed files, and the directory without them. -/
def compact (w : WalWriter) (beforeSequence : Nat) : Nat × WalWriter :=
  let removed := w.dir.filter (removable codec w beforeSequence)
  (removed.length,
    { w with dir := w.dir.filter (fun file => !removable codec w beforeSequence file) })

/-! ## Restarts -/

/-- Drop the writer and open the directory again.  Dropping the `BufWriter` writes it out. -/
def restart (w : WalWriter) (config : WalConfig) : WalWriter := new codec config w.dir

/-- A crash that loses the last `lost` bytes of what was not flushed, and the restart after it. -/
def crash (w : WalWriter) (lost : Nat) (config : WalConfig) : WalWriter :=
  new codec config
    (w.dir.modify w.file (fun content => content.take (content.length - min lost w.unsynced)))

/-! ## What the operations do -/

/-- The entries logged for an operation read back: their JSON is decoded to the entry it was
written for, and its length fits the length field of a frame. -/
def Loggable (now : DateTime) (operation : Operation) : Prop :=
  ∀ sequence checksum entryJson, sequence < 2 ^ 64 →
    codec.toVec ⟨sequence, now, operation, checksum⟩ = .ok entryJson →
      codec.fromSlice entryJson = .ok ⟨sequence, now, operation, checksum⟩ ∧
        entryJson.length < 2 ^ 32

variable {codec}

theorem sealEntry_eq {sequence : Nat} {now : DateTime} {operation : Operation} {entry : WalEntry}
    (h : sealEntry codec sequence now operation = .ok entry) :
    ∃ checksum, entry = ⟨sequence, now, operation, checksum⟩ ∧
      codec.verifyChecksum entry = .ok true := by
  unfold sealEntry at h
  cases hsum : codec.computeChecksum (WalEntry.new sequence now operation) with
  | error e => simp only [hsum, reduceCtorEq] at h
  | ok checksum =>
    simp only [hsum, Except.ok.injEq] at h
    refine ⟨checksum, h.symm, ?_⟩
    rw [← h, WalCodec.verifyChecksum, WalCodec.computeChecksum_checksum, hsum]
    simp only [beq_self_eq_true]

-- What a loggable operation is serialised to is the frame of its sealed entry.
theorem frames_of_sealEntry {sequence : Nat} {now : DateTime} {operation : Operation}
    {entry : WalEntry} {bytes : Bytes} (hlog : Loggable codec now operation)
    (hseq : sequence < 2 ^ 64) (hseal : sealEntry codec sequence now operation = .ok entry)
    (hser : codec.serializeEntry entry = .ok bytes) : codec.Frames entry bytes := by
  obtain ⟨checksum, rfl, hsealed⟩ := sealEntry_eq hseal
  unfold WalCodec.serializeEntry at hser
  cases hto : codec.toVec ⟨sequence, now, operation, checksum⟩ with
  | error e => simp only [hto, reduceCtorEq] at hser
  | ok entryJson =>
    simp only [hto, Except.ok.injEq] at hser
    obtain ⟨hfrom, hlen⟩ := hlog _ _ _ hseq hto
    exact ⟨⟨entryJson, hto, hfrom, hlen, hser.symm⟩, hsealed⟩

-- Dropping the collection `users` is loggable under the concrete codec.
theorem dropCodec_loggable : Loggable dropCodec 0 (.dropCollection "users") := by
  intro sequence checksum entryJson hseq hto
  obtain rfl : dropJson sequence "users" checksum = entryJson := by
    simpa [dropCodec] using hto
  refine ⟨dropCodec_fromSlice (parseDropJson_users _ _), ?_⟩
  have hlen := dropJson_users_length hseq checksum
  omega

/-- The writer with room for the next frame. -/
def makeRoom (w : WalWriter) (n : Nat) : WalWriter :=
  if w.shouldRotate n then w.rotateFile else w

variable (codec) in
-- What an append can do: fail before anything is written, or write what the entry with the current
-- sequence number is serialised to.
theorem append_outcome (w : WalWriter) (now : DateTime) (operation : Operation) :
    (∃ e, w.append codec now operation = (.error e, w.fetchSequence)) ∨
      ∃ entry bytes, sealEntry codec w.currentSequence now operation = .ok entry ∧
        codec.serializeEntry entry = .ok bytes ∧
        w.append codec now operation = (.ok w.currentSequence,
          ((w.fetchSequence.makeRoom bytes.length).writeFrame bytes).growFileSize
            bytes.length) := by
  cases hseal : sealEntry codec w.currentSequence now operation with
  | error e =>
    refine .inl ⟨e, ?_⟩
    simp only [append, hseal]
  | ok entry =>
    cases hser : codec.serializeEntry entry with
    | error e =>
      refine .inl ⟨e, ?_⟩
      simp only [append, hseal, hser]
    | ok bytes =>
      refine .inr ⟨entry, bytes, rfl, hser, ?_⟩
      simp only [append, hseal, hser, makeRoom]

-- A loggable operation is written as the frame of its entry.
theorem append_cases (w : WalWriter) {now : DateTime} {operation : Operation}
    (hlog : Loggable codec now operation) (hseq : w.currentSequence < 2 ^ 64) :
    (∃ e, w.append codec now operation = (.error e, w.fetchSequence)) ∨
      ∃ entry bytes, sealEntry codec w.currentSequence now operation = .ok entry ∧
        entry.sequence = w.currentSequence ∧ codec.Frames entry bytes ∧
        w.append codec now operation = (.ok w.currentSequence,
          ((w.fetchSequence.makeRoom bytes.length).writeFrame bytes).growFileSize
            bytes.length) := by
  rcases w.append_outcome codec now operation with h | ⟨entry, bytes, hseal, hser, happend⟩
  · exact .inl h
  · obtain ⟨checksum, hentry, -⟩ := sealEntry_eq hseal
    exact .inr ⟨entry, bytes, hseal, by rw [hentry], frames_of_sealEntry hlog hseq hseal hser,
      happend⟩

@[simp] theorem makeRoom_currentSequence (w : WalWriter) (n : Nat) :
    (w.makeRoom n).currentSequence = w.currentSequence := by
  unfold makeRoom
  split <;> rfl

@[simp] theorem writeFrame_currentSequence (w : WalWriter) (bytes : Bytes) :
    (w.writeFrame bytes).currentSequence = w.currentSequence := by
  unfold writeFrame
  dsimp only
  split <;> rfl

@[simp] theorem writeFrame_dir (w : WalWriter) (bytes : Bytes) :
    (w.writeFrame bytes).dir = w.dir.modify w.file (· ++ bytes) := by
  unfold writeFrame
  dsimp only
  split <;> rfl

@[simp] theorem writeFrame_file (w : WalWriter) (bytes : Bytes) :
    (w.writeFrame bytes).file = w.file := by
  unfold writeFrame
  dsimp only
  split <;> rfl

@[simp] theorem writeFrame_fileNumber (w : WalWriter) (bytes : Bytes) :
    (w.writeFrame bytes).fileNumber = w.fileNumber := by
  unfold writeFrame
  dsimp only
  split <;> rfl

/-! ### Scanning -/

theorem foldl_max_le_iff {l : List Nat} {a b : Nat} :
    l.foldl max a ≤ b ↔ a ≤ b ∧ ∀ x ∈ l, x ≤ b := by
  induction l generalizing a with
  | nil => simp
  | cons x l ih => simp [ih, and_assoc]

theorem foldl_max_mem (l : List Nat) (a : Nat) : l.foldl max a = a ∨ l.foldl max a ∈ l := by
  induction l generalizing a with
  | nil => exact .inl rfl
  | cons x l ih =>
    rcases ih (max a x) with h | h
    · rw [List.foldl_cons, h]
      rcases max_choice a x with hmax | hmax
      · exact .inl hmax
      · right
        rw [hmax]
        exact List.mem_cons_self
    · exact .inr (List.mem_cons_of_mem _ h)

theorem scanResults_ok (entries : List WalEntry) (maxSeq : Nat) :
    scanResults (entries.map .ok) maxSeq =
      (entries.map WalEntry.sequence).foldl max maxSeq := by
  induction entries generalizing maxSeq with
  | nil => rfl
  | cons entry entries ih => exact ih _

theorem scanFileForMaxSequence_holds {content : Bytes} {entries : List WalEntry}
    (h : codec.Holds content entries) :
    scanFileForMaxSequence codec content = (entries.map WalEntry.sequence).foldl max 0 := by
  rw [scanFileForMaxSequence, h.fileResults, scanResults_ok]

-- The two maxima of the directory scan.
theorem scanExistingWals_eq (dir : WalDir) :
    scanExistingWals codec dir =
      (let globalMax := (dir.map (fun f => scanFileForMaxSequence codec f.content)).foldl max 0
       if globalMax > 0 then (globalMax + 1) % 2 ^ 64 else 0,
       (dir.map WalFile.number).foldl max 0) := by
  have hfold (dir : WalDir) (a b : Nat) :
      dir.foldl (fun acc file =>
          (max acc.1 (scanFileForMaxSequence codec file.content), max acc.2 file.number)) (a, b) =
        ((dir.map (fun f => scanFileForMaxSequence codec f.content)).foldl max a,
          (dir.map WalFile.number).foldl max b) := by
    induction dir generalizing a b with
    | nil => rfl
    | cons file dir ih => exact ih _ _
  unfold scanExistingWals
  rw [hfold]

-- The scan finds the highest file number.
theorem scanExistingWals_fileNumber (codec : WalCodec) {dir : WalDir} {number : Nat}
    (hmem : number ∈ dir.map WalFile.number) (hle : ∀ n ∈ dir.map WalFile.number, n ≤ number) :
    (scanExistingWals codec dir).2 = number := by
  rw [scanExistingWals_eq]
  apply le_antisymm
  · exact foldl_max_le_iff.mpr ⟨Nat.zero_le _, hle⟩
  · exact (foldl_max_le_iff.mp le_rfl).2 _ hmem

-- The scanned sequence number lies above every logged one, provided one of them is not zero.
theorem scanExistingWals_sequence {dir : WalDir} (hframed : dir.Framed codec) {bound : Nat}
    (hbound : ∀ entry ∈ dir.entries codec, entry.sequence < bound) (hlt : bound < 2 ^ 64) :
    (scanExistingWals codec dir).1 ≤ bound ∧
      ((∃ entry ∈ dir.entries codec, entry.sequence ≠ 0) →
        ∀ entry ∈ dir.entries codec, entry.sequence < (scanExistingWals codec dir).1) := by
  rw [scanExistingWals_eq]
  dsimp only
  generalize hM : (dir.map (fun f => scanFileForMaxSequence codec f.content)).foldl max 0 = M
  have hupper : ∀ entry ∈ dir.entries codec, entry.sequence ≤ M := by
    intro entry hentry
    obtain ⟨file, hfile, hmem⟩ := List.mem_flatMap.mp hentry
    have hscan : scanFileForMaxSequence codec file.content ≤ M := by
      rw [← hM]
      exact (foldl_max_le_iff.mp le_rfl).2 _ (List.mem_map_of_mem hfile)
    rw [scanFileForMaxSequence_holds (hframed file hfile)] at hscan
    exact (foldl_max_le_iff.mp hscan).2 _ (List.mem_map_of_mem hmem)
  -- a maximum of zero is an empty log or one whose entries all have number zero
  have hattained : M = 0 ∨ ∃ entry ∈ dir.entries codec, entry.sequence = M := by
    rcases foldl_max_mem (dir.map (fun f => scanFileForMaxSequence codec f.content)) 0 with h | h
    · exact .inl (hM.symm.trans h)
    · rw [hM] at h
      obtain ⟨file, hfile, hscan⟩ := List.mem_map.mp h
      rw [scanFileForMaxSequence_holds (hframed file hfile)] at hscan
      rcases foldl_max_mem ((file.entries codec).map WalEntry.sequence) 0 with h₀ | h₀
      · exact .inl (hscan.symm.trans h₀)
      · obtain ⟨entry, hentry, hseq⟩ := List.mem_map.mp h₀
        exact .inr ⟨entry, List.mem_flatMap.mpr ⟨file, hfile, hentry⟩, hseq.trans hscan⟩
  rcases hattained with rfl | ⟨top, htop, rfl⟩
  · refine ⟨by simp, ?_⟩
    rintro ⟨entry, hlogged, hne⟩
    exact absurd (Nat.le_zero.mp (hupper entry hlogged)) hne
  · have hwrap : (top.sequence + 1) % 2 ^ 64 = top.sequence + 1 := by
      have := hbound top htop
      exact Nat.mod_eq_of_lt (by omega)
    rw [hwrap]
    constructor
    · have := hbound top htop
      split <;> omega
    · rintro ⟨entry, hlogged, hne⟩ entry' hlogged'
      have := hupper entry hlogged
      have := hupper entry' hlogged'
      rw [if_pos (by omega)]
      omega

/-! ### A writer on a directory of whole frames -/

/-- The writer is open on a file of its directory, and every file holds whole frames. -/
structure Sound (codec : WalCodec) (w : WalWriter) : Prop where
  framed : w.dir.Framed codec
  numbers_nodup : (w.dir.map WalFile.number).Nodup
  file_mem : w.file ∈ w.dir.map WalFile.number

variable {w : WalWriter}

theorem new_nil_dir (config : WalConfig) : (new codec config []).dir = [⟨0, []⟩] := rfl

theorem sound_new_nil (config : WalConfig) : Sound codec (new codec config []) := by
  refine ⟨?_, List.pairwise_singleton _ _, List.mem_singleton.mpr rfl⟩
  intro file hfile
  rw [new_nil_dir, List.mem_singleton] at hfile
  rw [hfile]
  exact .nil

-- A rotation adds an empty file at most.
theorem Sound.makeRoom (h : Sound codec w) (n : Nat) :
    Sound codec (w.makeRoom n) ∧ (w.makeRoom n).dir.entries codec = w.dir.entries codec := by
  unfold WalWriter.makeRoom
  split
  · obtain ⟨hframed, hentries⟩ := h.framed.create ((w.fileNumber + 1) % 2 ^ 64)
    exact ⟨⟨hframed, WalDir.create_numbers_nodup h.numbers_nodup _,
      WalDir.mem_create_numbers.mpr (.inr rfl)⟩, hentries⟩
  · exact ⟨h, rfl⟩

-- Writing a frame logs its entry at the end of the open file.
theorem Sound.writeFrame (h : Sound codec w) {entry : WalEntry} {bytes : Bytes}
    (hbytes : codec.Frames entry bytes) :
    Sound codec (w.writeFrame bytes) ∧
      ((w.writeFrame bytes).dir.entries codec).Perm (w.dir.entries codec ++ [entry]) ∧
      ∃ file ∈ (w.writeFrame bytes).dir, file.number = w.file ∧ entry ∈ file.entries codec := by
  obtain ⟨before, file, behind, hdir, hnumber, heq, hframed, hentries⟩ :=
    h.framed.write hbytes h.numbers_nodup h.file_mem
  rw [writeFrame_dir]
  refine ⟨⟨?_, ?_, ?_⟩, ?_, ?_⟩
  · rw [writeFrame_dir]
    exact hframed
  · rw [writeFrame_dir, WalDir.modify_numbers]
    exact h.numbers_nodup
  · rw [writeFrame_dir, writeFrame_file, WalDir.modify_numbers]
    exact h.file_mem
  · rw [heq, hdir]
    simp only [WalDir.entries, List.flatMap_append, List.flatMap_cons, hentries,
      List.append_assoc]
    exact (List.perm_append_comm.append_left _).append_left _
  · refine ⟨{ file with content := file.content ++ bytes }, ?_, hnumber, ?_⟩
    · rw [heq]
      exact List.mem_append_right _ List.mem_cons_self
    · rw [hentries]
      exact List.mem_append_right _ (List.mem_singleton.mpr rfl)

-- Growing the size counter or advancing the sequence counter concerns no file.
theorem Sound.of_dir_eq {w' : WalWriter} (h : Sound codec w) (hdir : w'.dir = w.dir)
    (hfile : w'.file = w.file) : Sound codec w' :=
  ⟨hdir ▸ h.framed, hdir ▸ h.numbers_nodup, hdir ▸ hfile ▸ h.file_mem⟩

-- A successful append logs the entry at the end of the file that is open then.
theorem Sound.append (h : Sound codec w) {entry : WalEntry} {bytes : Bytes}
    (hbytes : codec.Frames entry bytes) :
    let w' := ((w.fetchSequence.makeRoom bytes.length).writeFrame bytes).growFileSize bytes.length
    Sound codec w' ∧ (w'.dir.entries codec).Perm (w.dir.entries codec ++ [entry]) ∧
      ∃ file ∈ w'.dir, file.number = w'.file ∧ entry ∈ file.entries codec := by
  have hfetch : Sound codec w.fetchSequence := h.of_dir_eq rfl rfl
  obtain ⟨hroom, hroomEntries⟩ := hfetch.makeRoom bytes.length
  obtain ⟨hwrite, hentries, file, hfile, hnumber, hmem⟩ := hroom.writeFrame hbytes
  rw [hroomEntries] at hentries
  refine ⟨hwrite.of_dir_eq rfl rfl, hentries, file, hfile, ?_, hmem⟩
  rw [hnumber]
  simp only [growFileSize, writeFrame_file]

-- A rotation moves on to a new newest file.
theorem makeRoom_newest (hfile : w.file = w.fileNumber)
    (hmax : ∀ number ∈ w.dir.map WalFile.number, number ≤ w.fileNumber)
    (hlt : w.fileNumber < 2 ^ 64 - 1) (n : Nat) :
    (w.makeRoom n).file = (w.makeRoom n).fileNumber ∧
      (∀ number ∈ (w.makeRoom n).dir.map WalFile.number, number ≤ (w.makeRoom n).fileNumber) ∧
      (w.makeRoom n).fileNumber ≤ w.fileNumber + 1 := by
  unfold makeRoom
  split
  · have hnext : (w.fileNumber + 1) % 2 ^ 64 = w.fileNumber + 1 := Nat.mod_eq_of_lt (by omega)
    simp only [rotateFile, flush, fetchFileNumber, openFile, installFile, resetFileSize, hnext]
    refine ⟨trivial, ?_, le_rfl⟩
    intro number hnumber
    rcases WalDir.mem_create_numbers.mp hnumber with hnumber | rfl
    · exact (hmax number hnumber).trans (Nat.le_succ _)
    · exact le_rfl
  · exact ⟨hfile, hmax, Nat.le_succ _⟩

-- Opening a directory whose newest file is known finds that file and creates none.
theorem new_of_newest (codec : WalCodec) {dir : WalDir} {number : Nat}
    (hmem : number ∈ dir.map WalFile.number)
    (hle : ∀ n ∈ dir.map WalFile.number, n ≤ number) (config : WalConfig) :
    (new codec config dir).dir = dir ∧ (new codec config dir).file = number ∧
      (new codec config dir).fileNumber = number ∧
      (new codec config dir).currentFileSize = dir.fileSize number := by
  have hnumber := scanExistingWals_fileNumber codec hmem hle
  refine ⟨?_, hnumber, hnumber, ?_⟩
  · simp only [new, hnumber, WalDir.create, if_pos hmem]
  · simp only [new, hnumber, WalDir.create, if_pos hmem]

-- Opening a directory of one file.
theorem new_one (codec : WalCodec) (config : WalConfig) (number : Nat) (content : Bytes) :
    (new codec config [⟨number, content⟩]).dir = [⟨number, content⟩] ∧
      (new codec config [⟨number, content⟩]).file = number ∧
      (new codec config [⟨number, content⟩]).currentFileSize = content.length := by
  have hmem : number ∈ List.map WalFile.number [⟨number, content⟩] := List.mem_singleton.mpr rfl
  have hle : ∀ n ∈ List.map WalFile.number [⟨number, content⟩], n ≤ number := fun n hn =>
    (List.mem_singleton.mp hn).le
  obtain ⟨hdir, hfile, -, hsize⟩ := new_of_newest codec hmem hle config
  refine ⟨hdir, hfile, ?_⟩
  rw [hsize]
  simp [WalDir.fileSize]

theorem crash_eq_restart {lost : Nat} (h : min lost w.unsynced = 0) (config : WalConfig) :
    w.crash codec lost config = w.restart codec config := by
  have hdir : w.dir.modify w.file
      (fun content => content.take (content.length - min lost w.unsynced)) = w.dir := by
    simp only [h, Nat.sub_zero, List.take_length, WalDir.modify, ite_self, List.map_id']
  rw [crash, hdir, WalWriter.restart]

end WalWriter

end VedDb
