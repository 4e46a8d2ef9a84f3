import VedDb.Replication.Documents
import VedDb.Wal.Sequence

/-!
# Point-in-time recovery

`backup.rs`: a backup is a snapshot, recovery loads it and replays the log up to a target time.  The
log files are looked for by names such as `wal-00001.wal`, while the writer of the log names them
`wal-0000000001.log`: whatever was logged, recovery stops at the backup.  Nor is the storage cleared
before the backup is loaded.
-/

namespace VedDb

open LittleEndian (Bytes)

/-! ## Finding the files of the log -/

structure NamedFile where
  name : String
  content : Bytes
  deriving DecidableEq

def WalDir.named (dir : WalDir) : List NamedFile :=
  dir.map fun file => { name := walFileName file.number, content := file.content }

/-- `Path::extension`: what follows the last dot, unless there is none or the name begins with it.
`read_dir` does not list `..`. -/
def fileExtension (name : String) : Option String :=
  match name.toList.reverse.dropWhile (· ≠ '.') with
  | [] => none
  | [_] => none
  | _ => some (String.ofList (name.toList.reverse.takeWhile (· ≠ '.')).reverse)

/-- `Path::file_stem`: the name in front of its extension. -/
def fileStem (name : String) : String :=
  match name.toList.reverse.dropWhile (· ≠ '.') with
  | [] => name
  | [_] => name
  | _ :: before => String.ofList before.reverse

/-- `str::parse::<u64>`: digits, with a plus sign in front of them or not. -/
def parseU64 (text : List Char) : Option Nat :=
  let digits := if text.head? = some '+' then text.tail else text
  let value := digits.foldl (fun n c => 10 * n + (c.toNat - '0'.toNat)) 0
  if digits ≠ [] ∧ digits.all Char.isDigit ∧ value < 2 ^ 64 then some value else none

/-- The number in a file name that `find_wal_files_after` takes for a log file. -/
def walFileSequence (name : String) : Option Nat :=
  if fileExtension name = some "wal" then
    ("wal-".toList.isPrefixOf? (fileStem name).toList).bind parseU64
  else none

/-- `find_wal_files_after`; a directory that does not exist has no files. -/
def findWalFilesAfter (walDir : Option (List NamedFile)) (sequence : Nat) : List NamedFile :=
  match walDir with
  | none => []
  | some files =>
    (files.filter fun file => (walFileSequence file.name).any (sequence < ·)).mergeSort
      fun a b => decide (a.name ≤ b.name)

/-! ## Restoring and replaying -/

inductive BackupError where
  /-- `Backup file not found: {}` -/
  | notFound
  /-- `Failed to load snapshot: {}` -/
  | loadSnapshot (cause : SnapshotError)
  /-- `Failed to read WAL entry: {}` -/
  | readEntry (cause : WalError)
  /-- `TIMESTAMP AMBIGUITY DETECTED during Point-In-Time Recovery: ...` -/
  | timestampAmbiguity (sequence : Nat) (timestamp lastTimestamp : DateTime)
  /-- `NON-MONOTONIC WAL SEQUENCE DETECTED during Point-In-Time Recovery: ...` -/
  | nonMonotonicSequence (sequence lastSequenceApplied : Nat)
  /-- `Failed to apply WAL operation at sequence {}: {}` -/
  | applyOperation (sequence : Nat) (cause : StorageError)
  deriving DecidableEq

/-- `restore_backup`, on the contents of the backup file when it exists. -/
def restoreBackup (env : SnapshotEnv) (now : DateTime) (backup : Option Bytes)
    (layer : PersistentLayer) : Except BackupError Nat × PersistentLayer :=
  match backup with
  | none => (.error .notFound, layer)
  | some content =>
    match loadSnapshot env now content layer with
    | (.error e, layer) => (.error (.loadSnapshot e), layer)
    | (.ok walSequence, layer) => (.ok walSequence, layer)

/-- The loops of `replay_wal_to_time` over what the readers of the files answer. -/
def replayToTime (json : DocumentJson) (now targetTime : DateTime) :
    List (Except WalError WalEntry) → Option DateTime → Nat → PersistentLayer →
      Except BackupError Unit × PersistentLayer
  | [], _, _, layer => (.ok (), layer)
  | .error e :: _, _, _, layer => (.error (.readEntry e), layer)
  | .ok entry :: results, lastTimestamp, lastSequenceApplied, layer =>
    if targetTime < entry.timestamp then (.ok (), layer)
    else
      match lastTimestamp.filter (fun last => decide (entry.timestamp < last)) with
      | some last => (.error (.timestampAmbiguity entry.sequence entry.timestamp last), layer)
      | none =>
        if entry.sequence ≤ lastSequenceApplied then
          (.error (.nonMonotonicSequence entry.sequence lastSequenceApplied), layer)
        else
          match applyOperation json now entry.operation layer with
          | .error e => (.error (.applyOperation entry.sequence e), layer)
          | .ok layer =>
            replayToTime json now targetTime results (some entry.timestamp) entry.sequence
              layer

def replayWalToTime (codec : WalCodec) (json : DocumentJson) (now : DateTime)
    (walDir : Option (List NamedFile)) (fromSequence : Nat) (targetTime : DateTime)
    (layer : PersistentLayer) : Except BackupError Unit × PersistentLayer :=
  replayToTime json now targetTime
    ((findWalFilesAfter walDir fromSequence).flatMap fun file =>
      WalReader.fileResults codec file.content)
    none fromSequence layer

def pointInTimeRecovery (codec : WalCodec) (env : SnapshotEnv) (now : DateTime)
    (backup : Option Bytes) (targetTime : DateTime) (walDir : Option (List NamedFile))
    (layer : PersistentLayer) : Except BackupError Unit × PersistentLayer :=
  match restoreBackup env now backup layer with
  | (.error e, layer) => (.error e, layer)
  | (.ok backupSequence, layer) =>
    replayWalToTime codec env.json now walDir backupSequence targetTime layer

/-! ## What a replay that succeeds has applied -/

/-- The entries are a run the replay goes through: up to the target time, each later than the ones
before by its number, and none earlier by its time. -/
structure Replayed (targetTime : DateTime) (lastTimestamp : Option DateTime) (fromSequence : Nat)
    (applied : List WalEntry) : Prop where
  timestamp_le : ∀ entry ∈ applied, entry.timestamp ≤ targetTime
  last_le : ∀ last, lastTimestamp = some last → ∀ entry ∈ applied, last ≤ entry.timestamp
  ordered : applied.Pairwise fun a b => a.timestamp ≤ b.timestamp
  sequence_lt : ∀ entry ∈ applied, fromSequence < entry.sequence
  increasing : applied.Pairwise fun a b => a.sequence < b.sequence

theorem replayed_nil (targetTime : DateTime) (lastTimestamp : Option DateTime)
    (fromSequence : Nat) : Replayed targetTime lastTimestamp fromSequence [] where
  timestamp_le _ h := absurd h List.not_mem_nil
  last_le _ _ _ h := absurd h List.not_mem_nil
  ordered := .nil
  sequence_lt _ h := absurd h List.not_mem_nil
  increasing := .nil

theorem Replayed.cons {targetTime : DateTime} {lastTimestamp : Option DateTime}
    {fromSequence : Nat} {entry : WalEntry} {applied : List WalEntry}
    (htarget : entry.timestamp ≤ targetTime)
    (hlast : ∀ last, lastTimestamp = some last → last ≤ entry.timestamp)
    (hsequence : fromSequence < entry.sequence)
    (h : Replayed targetTime (some entry.timestamp) entry.sequence applied) :
    Replayed targetTime lastTimestamp fromSequence (entry :: applied) where
  timestamp_le := List.forall_mem_cons.mpr ⟨htarget, h.timestamp_le⟩
  last_le := by
    intro last heq
    refine List.forall_mem_cons.mpr ⟨hlast last heq, ?_⟩
    intro other hother
    exact Int.le_trans (hlast last heq) (h.last_le _ rfl other hother)
  ordered := List.pairwise_cons.mpr ⟨h.last_le _ rfl, h.ordered⟩
  sequence_lt := by
    refine List.forall_mem_cons.mpr ⟨hsequence, ?_⟩
    intro other hother
    exact hsequence.trans (h.sequence_lt other hother)
  increasing := List.pairwise_cons.mpr ⟨h.sequence_lt, h.increasing⟩

theorem Replayed.tail {targetTime : DateTime} {lastTimestamp : Option DateTime}
    {fromSequence : Nat} {entry : WalEntry} {applied : List WalEntry}
    (h : Replayed targetTime lastTimestamp fromSequence (entry :: applied)) :
    Replayed targetTime (some entry.timestamp) entry.sequence applied where
  timestamp_le := (List.forall_mem_cons.mp h.timestamp_le).2
  last_le := by
    intro last heq
    cases heq
    exact (List.pairwise_cons.mp h.ordered).1
  ordered := (List.pairwise_cons.mp h.ordered).2
  sequence_lt := (List.pairwise_cons.mp h.increasing).1
  increasing := (List.pairwise_cons.mp h.increasing).2

/-- The replay ends: nothing is left to read, or the next entry is later than the target time. -/
def Ends (targetTime : DateTime) (rest : List (Except WalError WalEntry)) : Prop :=
  rest = [] ∨ ∃ entry rest', rest = .ok entry :: rest' ∧ targetTime < entry.timestamp

-- One entry of the loop: it lies behind the target time, or it is in order and can be applied.
theorem replayToTime_cons_eq_ok_iff {json : DocumentJson} {now targetTime : DateTime}
    {entry : WalEntry} {results : List (Except WalError WalEntry)}
    {lastTimestamp : Option DateTime} {lastSequenceApplied : Nat} {layer after : PersistentLayer} :
    replayToTime json now targetTime (.ok entry :: results) lastTimestamp
        lastSequenceApplied layer =
        (.ok (), after) ↔
      targetTime < entry.timestamp ∧ after = layer ∨
        entry.timestamp ≤ targetTime ∧
          (∀ last, lastTimestamp = some last → last ≤ entry.timestamp) ∧
          lastSequenceApplied < entry.sequence ∧
          ∃ next, applyOperation json now entry.operation layer = .ok next ∧
            replayToTime json now targetTime results (some entry.timestamp) entry.sequence next =
              (.ok (), after) := by
  have hfilter : lastTimestamp.filter (fun last => decide (entry.timestamp < last)) = none ↔
      ∀ last, lastTimestamp = some last → last ≤ entry.timestamp := by
    simp [Option.filter_eq_none_iff]
  rw [replayToTime, ← hfilter]
  by_cases htime : targetTime < entry.timestamp
  · simp [htime, Int.not_le.mpr htime, eq_comm]
  · rw [if_neg htime]
    cases lastTimestamp.filter (fun last => decide (entry.timestamp < last)) with
    | some last => simp [htime]
    | none =>
      by_cases hsequence : entry.sequence ≤ lastSequenceApplied
      · simp [htime, hsequence, Nat.not_lt.mpr hsequence]
      · cases applyOperation json now entry.operation layer with
        | error e => simp [htime, hsequence]
        | ok next => simp [htime, hsequence, Int.not_lt.mp htime, Nat.lt_of_not_le hsequence]

theorem replayToTime_eq_ok_iff {json : DocumentJson} {now targetTime : DateTime}
    {results : List (Except WalError WalEntry)} {lastTimestamp : Option DateTime}
    {lastSequenceApplied : Nat} {layer after : PersistentLayer} :
    replayToTime json now targetTime results lastTimestamp lastSequenceApplied layer =
        (.ok (), after) ↔
      ∃ applied rest, results = applied.map .ok ++ rest ∧
        Replayed targetTime lastTimestamp lastSequenceApplied applied ∧
        (applied.map WalEntry.operation).foldlM (fun layer operation =>
          applyOperation json now operation layer) layer = .ok after ∧
        Ends targetTime rest := by
  constructor
  · intro h
    induction results generalizing lastTimestamp lastSequenceApplied layer with
    | nil =>
      cases h
      exact ⟨[], [], rfl, replayed_nil _ _ _, rfl, .inl rfl⟩
    | cons result results ih =>
      cases result with
      | error e => cases h
      | ok entry =>
        rcases replayToTime_cons_eq_ok_iff.mp h with
          ⟨hpast, rfl⟩ | ⟨htime, hlast, hsequence, next, happly, hnext⟩
        · exact ⟨[], _, rfl, replayed_nil _ _ _, rfl, .inr ⟨entry, results, rfl, hpast⟩⟩
        · obtain ⟨applied, rest, rfl, hreplayed, hafter, hends⟩ := ih hnext
          refine ⟨entry :: applied, rest, rfl, hreplayed.cons htime hlast hsequence, ?_, hends⟩
          rw [List.map_cons, List.foldlM_cons, happly]
          exact hafter
  · rintro ⟨applied, rest, hresults, hreplayed, hafter, hends⟩
    subst hresults
    induction applied generalizing lastTimestamp lastSequenceApplied layer with
    | nil =>
      cases hafter
      rcases hends with rfl | ⟨entry, rest', rfl, hpast⟩
      · rfl
      · exact replayToTime_cons_eq_ok_iff.mpr (.inl ⟨hpast, rfl⟩)
    | cons entry applied ih =>
      rw [List.map_cons, List.foldlM_cons] at hafter
      cases happly : applyOperation json now entry.operation layer with
      | error e =>
        rw [happly] at hafter
        cases hafter
      | ok next =>
        rw [happly] at hafter
        exact replayToTime_cons_eq_ok_iff.mpr (.inr
          ⟨hreplayed.timestamp_le entry List.mem_cons_self,
            fun last heq => hreplayed.last_le last heq entry List.mem_cons_self,
            hreplayed.sequence_lt entry List.mem_cons_self, next, happly,
            ih hreplayed.tail hafter⟩)

/-- From any backup and directory, recovery succeeds exactly when the backup can be restored and the
files found give entries of growing numbers and times that do not fall, all of which can be applied,
up to the end or to an entry later than the target time; the storage is then what these leave. -/
theorem pointInTimeRecovery_eq_ok_iff {codec : WalCodec} {env : SnapshotEnv}
    {now targetTime : DateTime} {backup : Option Bytes} {walDir : Option (List NamedFile)}
    {layer after : PersistentLayer} :
    pointInTimeRecovery codec env now backup targetTime walDir layer = (.ok (), after) ↔
      ∃ backupSequence restored applied rest,
        restoreBackup env now backup layer = (.ok backupSequence, restored) ∧
        ((findWalFilesAfter walDir backupSequence).flatMap fun file =>
          WalReader.fileResults codec file.content) = applied.map .ok ++ rest ∧
        Replayed targetTime none backupSequence applied ∧
        (applied.map WalEntry.operation).foldlM (fun layer operation =>
          applyOperation env.json now operation layer) restored = .ok after ∧
        Ends targetTime rest := by
  unfold pointInTimeRecovery
  obtain ⟨result, restored⟩ := restoreBackup env now backup layer
  cases result with
  | error e => simp
  | ok backupSequence =>
    dsimp only
    rw [replayWalToTime, replayToTime_eq_ok_iff]
    constructor
    · rintro ⟨applied, rest, h⟩
      exact ⟨backupSequence, restored, applied, rest, rfl, h⟩
    · rintro ⟨_, _, applied, rest, heq, h⟩
      cases heq
      exact ⟨applied, rest, h⟩

/-! ## The files of the writer -/

theorem fileExtension_walFileName (number : Nat) :
    fileExtension (walFileName number) = some "log" := by
  have hreverse : ∃ before, (walFileName number).toList.reverse =
      ['g', 'o', 'l', '.'] ++ (before ++ ['-', 'l', 'a', 'w']) := by
    unfold walFileName
    simp only [String.toList_ofList, List.reverse_append]
    exact ⟨_, rfl⟩
  obtain ⟨before, hreverse⟩ := hreverse
  cases before with
  | nil => simp [fileExtension, hreverse]
  | cons c before => simp [fileExtension, hreverse]

theorem walFileSequence_walFileName (number : Nat) :
    walFileSequence (walFileName number) = none := by
  rw [walFileSequence, fileExtension_walFileName, if_neg (by decide)]

-- None of the writer's files is looked at.
theorem findWalFilesAfter_named (dir : WalDir) (sequence : Nat) :
    findWalFilesAfter (some dir.named) sequence = [] := by
  have hnone : (dir.named.filter fun file => (walFileSequence file.name).any (sequence < ·)) =
      [] := by
    rw [List.filter_eq_nil_iff]
    intro file hfile
    obtain ⟨own, -, rfl⟩ := List.mem_map.mp hfile
    simp only [walFileSequence_walFileName, Option.any_none, Bool.false_eq_true, not_false_eq_true]
  simp only [findWalFilesAfter, hnone, List.mergeSort_nil]

-- Recovery from the writer's directory is the restored backup.
theorem pointInTimeRecovery_named (codec : WalCodec) (env : SnapshotEnv) (now targetTime : DateTime)
    (content : Bytes) (dir : WalDir) (layer after : PersistentLayer) :
    pointInTimeRecovery codec env now (some content) targetTime (some dir.named) layer =
        (.ok (), after) ↔
      (∃ walSequence, (loadSnapshot env now content layer).1 = .ok walSequence) ∧
        after = (loadSnapshot env now content layer).2 := by
  unfold pointInTimeRecovery restoreBackup
  cases hload : loadSnapshot env now content layer with
  | mk result restored =>
    cases result with
    | error e => simp only [hload, Prod.mk.injEq, reduceCtorEq, false_and, exists_false]
    | ok walSequence =>
      simp only [hload, replayWalToTime, findWalFilesAfter_named, List.flatMap_nil,
        replayToTime, Prod.mk.injEq, true_and, Except.ok.injEq, exists_eq']
      exact eq_comm

end VedDb
