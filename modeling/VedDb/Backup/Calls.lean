import VedDb.Backup.Manager

/-!
# Calls that may be cut off

`create_backup` up to where it returns or the process dies: what its operations on the files leave,
one after the other.  The snapshot and its metadata are written under temporary names and renamed,
then the oldest backups are deleted.
-/

namespace VedDb

open LittleEndian (Bytes)
open Durable (Outcome)

/-- Where a call ends that has its snapshot. -/
inductive BackupEnd where
  | returns
  /-- The metadata is not begun, or written in part or whole. -/
  | metadata (written : Option Bytes)
  /-- Only the snapshot is renamed. -/
  | renames
  /-- So many backups are deleted, and of the next the snapshot or not. -/
  | deletes (removed : Nat) (half : Bool)
  deriving DecidableEq

/-- A call of `create_backup`: the two times it reads, and what `create_snapshot` writes or leaves
behind where it fails or is cut off. -/
structure BackupCall where
  started : DateTime
  created : DateTime
  walSequence : Nat
  snapshot : Except (Option Bytes) Bytes
  ends : BackupEnd

/-- A backup that a call has finished. -/
structure FinishedBackup where
  info : BackupInfo
  content : Bytes
  deriving DecidableEq

/-- The files, and the backups finished so far, the oldest first. -/
structure BackupRun where
  files : Files
  finished : List FinishedBackup

namespace BackupManager

variable (env : BackupEnv)

/-- The files `list_backups` looks at. -/
def backupFiles (manager : BackupManager) : List (String × StoredFile) :=
  (Files.readDir manager.files manager.config.backupDir).filter fun entry =>
    fileExtension (fileName entry.1) = some "veddb" ∨ fileExtension (fileName entry.1) = some "gz"

theorem listBackups_length (manager : BackupManager) :
    (manager.listBackups env).length = manager.backupFiles.length := by
  show (List.mergeSort (manager.backupFiles.map _) _).length = _
  rw [List.length_mergeSort, List.length_map]

/-- The backups `cleanup_old_backups` deletes. -/
def toDelete (manager : BackupManager) : List BackupInfo :=
  let backups := (manager.listBackups env).filter fun backup =>
    !backup.filePath.toList.tails.any fun rest => ".tmp".toList.isPrefixOf rest
  (backups.mergeSort fun a b => decide (a.createdAt ≤ b.createdAt)).take (backups.length - 5)

theorem cleanupOldBackups_files (manager : BackupManager) :
    (manager.cleanupOldBackups env).files = deleteBackups manager.files (manager.toDelete env) :=
  rfl

/-- The files after the loop of `cleanup_old_backups` is cut off. -/
def deletedInPart (manager : BackupManager) (removed : Nat) (half : Bool) : Files :=
  let files := deleteBackups manager.files ((manager.toDelete env).take removed)
  match (manager.toDelete env)[removed]? with
  | none => files
  | some backup => if half then files.erase backup.filePath else files

end BackupManager

namespace BackupCall

variable (env : BackupEnv) (config : BackupConfig) (call : BackupCall)

def backupId : String := "backup_" ++ env.format call.started

def backupFilename : String :=
  if config.compress then call.backupId env ++ ".veddb.gz" else call.backupId env ++ ".veddb"

def tempBackupPath : String := joinPath config.backupDir (call.backupFilename env config ++ ".tmp")

def finalBackupPath : String := joinPath config.backupDir (call.backupFilename env config)

def tempMetaPath : String := withExtension (call.tempBackupPath env config) "meta.tmp"

def finalMetaPath : String := withExtension (call.finalBackupPath env config) "meta"

def backupInfo (content : Bytes) : BackupInfo :=
  { backupId := call.backupId env
    createdAt := call.created
    walSequence := call.walSequence
    filePath := call.finalBackupPath env config
    sizeBytes := content.length
    includesWal := config.includeWal
    compressed := config.compress }

def snapshotWritten (files : Files) (content : Bytes) : Files :=
  files.insert (call.tempBackupPath env config) ⟨content, call.started⟩

/-- The same with the metadata in theirs. -/
def metadataWritten (files : Files) (content metadata : Bytes) : Files :=
  (call.snapshotWritten env config files content).insert (call.tempMetaPath env config)
    ⟨metadata, call.created⟩

def snapshotRenamed (files : Files) (content metadata : Bytes) : Files :=
  Files.rename (call.metadataWritten env config files content metadata)
    (call.tempBackupPath env config) (call.finalBackupPath env config)

def metadataRenamed (files : Files) (content metadata : Bytes) : Files :=
  Files.rename (call.snapshotRenamed env config files content metadata)
    (call.tempMetaPath env config) (call.finalMetaPath env config)

/-- The state a call leaves. -/
def after (run : BackupRun) : BackupRun :=
  match call.snapshot with
  | .error none => run
  | .error (some part) => { run with files := call.snapshotWritten env config run.files part }
  | .ok content =>
    match env.toStringPretty (call.backupInfo env config content), call.ends with
    | _, .metadata none | .error _, _ =>
      { run with files := call.snapshotWritten env config run.files content }
    | _, .metadata (some written) =>
      { run with files := call.metadataWritten env config run.files content written }
    | .ok metadata, .renames =>
      { run with files := call.snapshotRenamed env config run.files content metadata }
    | .ok metadata, .returns =>
      let files := call.metadataRenamed env config run.files content metadata
      { files := (BackupManager.cleanupOldBackups env ⟨config, files⟩).files
        finished := run.finished ++ [⟨call.backupInfo env config content, content⟩] }
    | .ok metadata, .deletes removed half =>
      let files := call.metadataRenamed env config run.files content metadata
      { files := BackupManager.deletedInPart env ⟨config, files⟩ removed half
        finished := run.finished ++ [⟨call.backupInfo env config content, content⟩] }

end BackupCall

/-- What serde and chrono promise: the JSON of a backup is read back, and the time in its name is
of digits, with an underscore, and a sign where the year has more than four of them. -/
structure BackupEnv.Documented (env : BackupEnv) : Prop where
  fromStr_toStringPretty : ∀ info bytes,
    env.toStringPretty info = .ok bytes → env.fromStr bytes = .ok info
  format_chars : ∀ time, ∀ c ∈ (env.format time).toList, c.isDigit ∨ c ∈ ['_', '+', '-']

/-! ## The paths of a call -/

def BackupConfig.snapshotStem (config : BackupConfig) (backupId : String) : String :=
  if config.compress then backupId ++ ".veddb" else backupId

def BackupConfig.snapshotExtension (config : BackupConfig) : String :=
  if config.compress then "gz" else "veddb"

/-- The stems of backups: none has a `t`, so none makes up a `.tmp`. -/
def IsBackupStem (stem : String) : Prop := IsStem stem ∧ 't' ∉ stem.toList

theorem BackupConfig.snapshotExtension_cases (config : BackupConfig) :
    config.snapshotExtension = "gz" ∨ config.snapshotExtension = "veddb" := by
  unfold snapshotExtension
  split
  · exact .inl rfl
  · exact .inr rfl

theorem BackupConfig.snapshotExtension_ne (config : BackupConfig) {extension : String}
    (hgz : "gz" ≠ extension) (hveddb : "veddb" ≠ extension) :
    config.snapshotExtension ≠ extension := by
  rcases config.snapshotExtension_cases with h | h
  · rw [h]
    exact hgz
  · rw [h]
    exact hveddb

theorem BackupConfig.isExtension_snapshot (config : BackupConfig) :
    IsExtension config.snapshotExtension := by
  unfold IsExtension
  rcases config.snapshotExtension_cases with h | h
  · rw [h]
    decide
  · rw [h]
    decide

theorem isExtension_meta : IsExtension "meta" := by
  unfold IsExtension
  decide

theorem isExtension_tmp : IsExtension "tmp" := by
  unfold IsExtension
  decide

namespace BackupCall

variable {env : BackupEnv} (henv : env.Documented) (config : BackupConfig) (call : BackupCall)

include henv

theorem backupId_chars : ∀ c ∈ (call.backupId env).toList, c ≠ '/' ∧ c ≠ 't' := by
  intro c hc
  rw [backupId, String.toList_append, List.mem_append] at hc
  rcases hc with hc | hc
  · have hname : "backup_".toList = ['b', 'a', 'c', 'k', 'u', 'p', '_'] := rfl
    rw [hname] at hc
    constructor
    · rintro rfl
      exact absurd hc (by decide)
    · rintro rfl
      exact absurd hc (by decide)
  · constructor
    · rintro rfl
      exact absurd (henv.format_chars _ _ hc) (by decide)
    · rintro rfl
      exact absurd (henv.format_chars _ _ hc) (by decide)

theorem isBackupStem : IsBackupStem (config.snapshotStem (call.backupId env)) := by
  have hchars := call.backupId_chars henv
  have hne : (call.backupId env).toList ≠ [] := by
    rw [backupId, String.toList_append]
    exact List.append_ne_nil_of_left_ne_nil (by decide) _
  unfold BackupConfig.snapshotStem
  split
  · refine ⟨⟨?_, ?_⟩, ?_⟩
    · rw [String.toList_append]
      exact List.append_ne_nil_of_left_ne_nil hne _
    · rw [String.toList_append, List.mem_append]
      rintro (h | h)
      · exact (hchars _ h).1 rfl
      · exact absurd h (by decide)
    · rw [String.toList_append, List.mem_append]
      rintro (h | h)
      · exact (hchars _ h).2 rfl
      · exact absurd h (by decide)
  · exact ⟨⟨hne, fun h => (hchars _ h).1 rfl⟩, fun h => (hchars _ h).2 rfl⟩

omit henv in
theorem backupFilename_eq : call.backupFilename env config =
    config.snapshotStem (call.backupId env) ++ "." ++ config.snapshotExtension := by
  unfold backupFilename BackupConfig.snapshotStem BackupConfig.snapshotExtension
  split
  · apply String.toList_injective
    simp
  · apply String.toList_injective
    simp

theorem isStem_backupFilename : IsStem (call.backupFilename env config) := by
  have hstem := (call.isBackupStem henv config).1
  rw [backupFilename_eq]
  refine ⟨?_, slash_notMem_named hstem config.isExtension_snapshot⟩
  rw [toList_named]
  exact List.append_ne_nil_of_left_ne_nil hstem.1 _

theorem isStem_tempMeta : IsStem (call.backupFilename env config ++ ".meta") := by
  have hstem := call.isStem_backupFilename henv config
  constructor
  · rw [String.toList_append]
    exact List.append_ne_nil_of_left_ne_nil hstem.1 _
  · rw [String.toList_append, List.mem_append]
    rintro (h | h)
    · exact hstem.2 h
    · exact absurd h (by decide)

variable (hdir : config.backupDir ≠ "")

include hdir

theorem finalBackupPath_eq : call.finalBackupPath env config =
    dirPath config.backupDir (config.snapshotStem (call.backupId env))
      config.snapshotExtension := by
  rw [finalBackupPath, joinPath_of_slash hdir (call.isStem_backupFilename henv config).2,
    backupFilename_eq, dirPath]

theorem tempBackupPath_eq : call.tempBackupPath env config =
    dirPath config.backupDir (call.backupFilename env config) "tmp" := by
  have hslash := slash_notMem_named (call.isStem_backupFilename henv config) isExtension_tmp
  have hname : call.backupFilename env config ++ ".tmp" =
      call.backupFilename env config ++ "." ++ "tmp" := by
    apply String.toList_injective
    simp
  rw [tempBackupPath, hname, joinPath_of_slash hdir hslash, dirPath]

theorem tempMetaPath_eq : call.tempMetaPath env config =
    dirPath config.backupDir (call.backupFilename env config ++ ".meta") "tmp" := by
  rw [tempMetaPath, call.tempBackupPath_eq henv config hdir,
    withExtension_dirPath (call.isStem_backupFilename henv config) isExtension_tmp]
  apply String.toList_injective
  simp [dirPath]

theorem finalMetaPath_eq : call.finalMetaPath env config =
    dirPath config.backupDir (config.snapshotStem (call.backupId env)) "meta" := by
  rw [finalMetaPath, call.finalBackupPath_eq henv config hdir,
    withExtension_dirPath (call.isBackupStem henv config).1 config.isExtension_snapshot]

end BackupCall

/-! ## What the stages of a call change -/

def IsTemporary (path : String) : Prop := fileExtension (fileName path) = some "tmp"

/-- The files are the same, temporary ones apart. -/
def SameButTemporary (files files' : Files) : Prop :=
  ∀ path, ¬IsTemporary path → files'[path]? = files[path]?

theorem SameButTemporary.insert {files files' : Files} (h : SameButTemporary files files')
    {path : String} (hpath : IsTemporary path) (file : StoredFile) :
    SameButTemporary files (files'.insert path file) := by
  intro other hother
  have hne : path ≠ other := fun heq => hother (heq ▸ hpath)
  rw [lookup_insert, if_neg hne, h other hother]

namespace BackupCall

variable {env : BackupEnv} (henv : env.Documented) {config : BackupConfig} (call : BackupCall)
  (hdir : config.backupDir ≠ "") (files : Files) (content metadata : Bytes)

include henv hdir

theorem isTemporary_backup : IsTemporary (call.tempBackupPath env config) := by
  rw [IsTemporary, call.tempBackupPath_eq henv config hdir,
    fileExtension_dirPath (call.isStem_backupFilename henv config) isExtension_tmp]

theorem isTemporary_meta : IsTemporary (call.tempMetaPath env config) := by
  rw [IsTemporary, call.tempMetaPath_eq henv config hdir,
    fileExtension_dirPath (call.isStem_tempMeta henv config) isExtension_tmp]

theorem snapshotWritten_same :
    SameButTemporary files (call.snapshotWritten env config files content) := by
  have hsame : SameButTemporary files files := fun _ _ => rfl
  exact hsame.insert (call.isTemporary_backup henv hdir) _

theorem metadataWritten_same :
    SameButTemporary files (call.metadataWritten env config files content metadata) :=
  (call.snapshotWritten_same henv hdir files content).insert (call.isTemporary_meta henv hdir) _

theorem temp_ne : call.tempMetaPath env config ≠ call.tempBackupPath env config := by
  rw [call.tempMetaPath_eq henv config hdir, call.tempBackupPath_eq henv config hdir]
  intro heq
  have hstem := stem_inj (call.isStem_tempMeta henv config) isExtension_tmp
    (call.isStem_backupFilename henv config) heq
  have hlength := congrArg String.length hstem
  rw [String.length_append] at hlength
  have hmeta : ".meta".length = 5 := by decide
  omega

theorem finalMeta_ne : call.finalBackupPath env config ≠ call.finalMetaPath env config := by
  rw [call.finalBackupPath_eq henv config hdir, call.finalMetaPath_eq henv config hdir]
  have hstem := (call.isBackupStem henv config).1
  apply dirPath_ne_of_extension hstem config.isExtension_snapshot hstem isExtension_meta
  exact config.snapshotExtension_ne (by decide) (by decide)

theorem not_isTemporary_final : ¬IsTemporary (call.finalBackupPath env config) := by
  rw [IsTemporary, call.finalBackupPath_eq henv config hdir,
    fileExtension_dirPath (call.isBackupStem henv config).1 config.isExtension_snapshot,
    Option.some.injEq]
  exact config.snapshotExtension_ne (by decide) (by decide)

theorem not_isTemporary_finalMeta : ¬IsTemporary (call.finalMetaPath env config) := by
  rw [IsTemporary, call.finalMetaPath_eq henv config hdir,
    fileExtension_dirPath (call.isBackupStem henv config).1 isExtension_meta]
  decide

/-- After both renames the two files are under their names, and nothing else has changed. -/
theorem getElem?_metadataRenamed {path : String} (hpath : ¬IsTemporary path) :
    (call.metadataRenamed env config files content metadata)[path]? =
      if call.finalMetaPath env config = path then some ⟨metadata, call.created⟩
      else if call.finalBackupPath env config = path then some ⟨content, call.started⟩
      else files[path]? := by
  have hne := call.temp_ne henv hdir
  have hfinal := call.not_isTemporary_final henv hdir
  have htemp : (call.metadataWritten env config files content metadata)[
      call.tempBackupPath env config]? = some ⟨content, call.started⟩ := by
    rw [metadataWritten, lookup_insert, if_neg hne, snapshotWritten,
      Std.ExtTreeMap.getElem?_insert_self]
  have hmeta : (call.snapshotRenamed env config files content metadata)[
      call.tempMetaPath env config]? = some ⟨metadata, call.created⟩ := by
    have hother : call.finalBackupPath env config ≠ call.tempMetaPath env config :=
      fun heq => hfinal (heq ▸ call.isTemporary_meta henv hdir)
    rw [snapshotRenamed, Files.getElem?_rename htemp, if_neg hother, if_neg hne.symm,
      metadataWritten, Std.ExtTreeMap.getElem?_insert_self]
  have htempPath : call.tempBackupPath env config ≠ path :=
    fun heq => hpath (heq ▸ call.isTemporary_backup henv hdir)
  have hmetaPath : call.tempMetaPath env config ≠ path :=
    fun heq => hpath (heq ▸ call.isTemporary_meta henv hdir)
  rw [metadataRenamed, Files.getElem?_rename hmeta, if_neg hmetaPath, snapshotRenamed,
    Files.getElem?_rename htemp, if_neg htempPath,
    call.metadataWritten_same henv hdir files content metadata path hpath]

end BackupCall

end VedDb
