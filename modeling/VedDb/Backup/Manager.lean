import Mathlib.Data.List.Infix
import VedDb.Backup.Recovery
import VedDb.Lib.Lookups
import VedDb.Lib.SelfDelimiting
import VedDb.Snapshot.Format

/-!
# The backup manager

`BackupManager` of `backup.rs` on the files it works on: creating, listing and deleting backups.
Restoring and recovery, in `Recovery`, take the contents of a file; here they are looked up by path.
Failures of the file system other than a missing file are left out.
-/

namespace VedDb

open LittleEndian (Bytes)
open Durable (Outcome)

/-! ## Paths and files -/

structure StoredFile where
  content : Bytes
  created : DateTime
deriving DecidableEq

/-- The files by path. -/
abbrev Files := Std.ExtTreeMap String StoredFile

/-- A directory with a slash behind it. -/
def withSlash (dir : String) : String :=
  if dir.toList.getLast? = some '/' then dir else dir ++ "/"

/-- `Path::join`: an absolute path replaces what it is joined to. -/
def joinPath (dir path : String) : String :=
  if path.toList.head? = some '/' ∨ dir = "" then path else withSlash dir ++ path

/-- The directory of a path, with the slash behind it. -/
def parentDir (path : String) : String :=
  String.ofList (path.toList.reverse.dropWhile (· ≠ '/')).reverse

def fileName (path : String) : String :=
  String.ofList (path.toList.reverse.takeWhile (· ≠ '/')).reverse

def withExtension (path extension : String) : String :=
  parentDir path ++ fileStem (fileName path) ++ "." ++ extension

/-- The files of a directory.  No directory exists under the empty path. -/
def Files.readDir (files : Files) (dir : String) : List (String × StoredFile) :=
  if dir = "" then []
  else files.toList.filter fun entry => parentDir entry.1 = withSlash dir

/-- The files that recovery looks for the log in. -/
def Files.walDir (files : Files) (dir : String) : Option (List NamedFile) :=
  some ((files.readDir dir).map fun entry => ⟨fileName entry.1, entry.2.content⟩)

/-- `fs::rename`, of a file that is there. -/
def Files.rename (files : Files) (source target : String) : Files :=
  match files[source]? with
  | none => files
  | some file => (files.erase source).insert target file

section

theorem withSlash_eq (dir : String) :
    ∃ base, withSlash dir = base ++ "/" ∧ (dir = base ∨ dir = base ++ "/") := by
  unfold withSlash
  split
  · rename_i hlast
    obtain ⟨before, hbefore⟩ := List.getLast?_eq_some_iff.mp hlast
    have hdir : dir = String.ofList before ++ "/" := by
      apply String.toList_injective
      rw [hbefore]
      simp
    exact ⟨String.ofList before, hdir, .inr hdir⟩
  · exact ⟨dir, rfl, .inl rfl⟩

/-- The path of a file by its directory, stem and extension. -/
def dirPath (dir stem extension : String) : String := withSlash dir ++ (stem ++ "." ++ extension)

/-- A stem that is part of a file name. -/
def IsStem (stem : String) : Prop := stem.toList ≠ [] ∧ '/' ∉ stem.toList

/-- An extension that follows the last dot of a file name. -/
def IsExtension (extension : String) : Prop := '/' ∉ extension.toList ∧ '.' ∉ extension.toList

variable {dir stem extension other : String}

theorem toList_named (stem extension : String) :
    (stem ++ "." ++ extension).toList = stem.toList ++ '.' :: extension.toList := by
  simp

theorem toList_dirPath {base : String} (hbase : withSlash dir = base ++ "/") :
    (dirPath dir stem extension).toList =
      base.toList ++ '/' :: (stem ++ "." ++ extension).toList := by
  simp [dirPath, hbase]

section

variable (hstem : IsStem stem) (hextension : IsExtension extension)

include hstem hextension

theorem slash_notMem_named : '/' ∉ (stem ++ "." ++ extension).toList := by
  rw [toList_named, List.mem_append, List.mem_cons]
  rintro (h | h | h)
  · exact hstem.2 h
  · exact absurd h (by decide)
  · exact hextension.1 h

theorem parentDir_dirPath : parentDir (dirPath dir stem extension) = withSlash dir := by
  have hslash := slash_notMem_named hstem hextension
  obtain ⟨base, hbase, -⟩ := withSlash_eq dir
  rw [parentDir, toList_dirPath hbase, Separated.dropWhile_reverse_append_cons _ hslash,
    List.reverse_cons, List.reverse_reverse, hbase]
  apply String.toList_injective
  simp

theorem fileName_dirPath :
    fileName (dirPath dir stem extension) = stem ++ "." ++ extension := by
  have hslash := slash_notMem_named hstem hextension
  obtain ⟨base, hbase, -⟩ := withSlash_eq dir
  rw [fileName, toList_dirPath hbase, Separated.takeWhile_reverse_append_cons _ hslash,
    List.reverse_reverse, String.ofList_toList]

theorem fileExtension_named : fileExtension (stem ++ "." ++ extension) = some extension := by
  unfold fileExtension
  rw [toList_named, Separated.dropWhile_reverse_append_cons _ hextension.2,
    Separated.takeWhile_reverse_append_cons _ hextension.2, List.reverse_reverse,
    String.ofList_toList]
  cases hreverse : stem.toList.reverse with
  | nil => exact absurd (List.reverse_eq_nil_iff.mp hreverse) hstem.1
  | cons c rest => rfl

theorem fileStem_named : fileStem (stem ++ "." ++ extension) = stem := by
  unfold fileStem
  rw [toList_named, Separated.dropWhile_reverse_append_cons _ hextension.2]
  cases hreverse : stem.toList.reverse with
  | nil => exact absurd (List.reverse_eq_nil_iff.mp hreverse) hstem.1
  | cons c rest =>
    show String.ofList (c :: rest).reverse = stem
    rw [← hreverse, List.reverse_reverse, String.ofList_toList]

theorem fileExtension_dirPath :
    fileExtension (fileName (dirPath dir stem extension)) = some extension := by
  rw [fileName_dirPath hstem hextension, fileExtension_named hstem hextension]

theorem withExtension_dirPath :
    withExtension (dirPath dir stem extension) other = dirPath dir stem other := by
  rw [withExtension, parentDir_dirPath hstem hextension, fileName_dirPath hstem hextension,
    fileStem_named hstem hextension, dirPath]
  simp only [String.append_assoc]

end

theorem dirPath_ne_of_extension (hstem : IsStem stem) (hextension : IsExtension extension)
    {stem' : String} (hstem' : IsStem stem') (hother : IsExtension other)
    (hne : extension ≠ other) : dirPath dir stem extension ≠ dirPath dir stem' other := by
  intro heq
  have h := congrArg (fun path => fileExtension (fileName path)) heq
  simp only [fileExtension_dirPath hstem hextension, fileExtension_dirPath hstem' hother,
    Option.some.injEq] at h
  exact hne h

theorem stem_inj (hstem : IsStem stem) (hextension : IsExtension extension) {stem' : String}
    (hstem' : IsStem stem') (heq : dirPath dir stem extension = dirPath dir stem' extension) :
    stem = stem' := by
  have h := congrArg (fun path => fileStem (fileName path)) heq
  simp only [fileName_dirPath hstem hextension, fileName_dirPath hstem' hextension,
    fileStem_named hstem hextension, fileStem_named hstem' hextension] at h
  exact h

/-- A text with a letter that the file name lacks, and no slash, is found in the directory. -/
theorem infix_dirPath_iff {text : List Char} {c : Char} (hslash : '/' ∉ text) (hmem : c ∈ text)
    (hname : c ∉ (stem ++ "." ++ extension).toList) :
    text <:+: (dirPath dir stem extension).toList ↔ text <:+: dir.toList := by
  obtain ⟨base, hbase, hdir⟩ := withSlash_eq dir
  rw [toList_dirPath hbase, Separated.infix_append_cons_iff hslash hmem hname]
  rcases hdir with rfl | rfl
  · rfl
  · have hslashed : (base ++ "/").toList = base.toList ++ '/' :: [] := by simp
    rw [hslashed, Separated.infix_append_cons_iff hslash hmem List.not_mem_nil]

end

theorem joinPath_of_slash {dir path : String} (hdir : dir ≠ "") (hpath : '/' ∉ path.toList) :
    joinPath dir path = withSlash dir ++ path := by
  have hhead : path.toList.head? ≠ some '/' := fun h => hpath (List.mem_of_head? h)
  rw [joinPath, if_neg (not_or.mpr ⟨hhead, hdir⟩)]

theorem Files.getElem?_rename {files : Files} {source : String} {file : StoredFile}
    (h : files[source]? = some file) (target path : String) :
    (files.rename source target)[path]? =
      if target = path then some file else if source = path then none else files[path]? := by
  unfold Files.rename
  simp only [h]
  rw [lookup_insert, lookup_erase]

/-! ## Backups -/

structure BackupConfig where
  includeWal : Bool
  compress : Bool
  backupDir : String
deriving DecidableEq

structure BackupInfo where
  backupId : String
  createdAt : DateTime
  walSequence : Nat
  filePath : String
  sizeBytes : Nat
  includesWal : Bool
  compressed : Bool
deriving DecidableEq

/-- What the manager rests on: the snapshots, the JSON of `BackupInfo`, and the time of day in the
name of a backup, as `%Y%m%d_%H%M%S`. -/
structure BackupEnv where
  snapshot : SnapshotEnv
  toStringPretty : BackupInfo → Except String Bytes
  fromStr : Bytes → Except String BackupInfo
  format : DateTime → String

structure BackupManager where
  config : BackupConfig
  files : Files

namespace BackupManager

variable (env : BackupEnv) (now : DateTime)

def loadBackupMetadata (manager : BackupManager) (backupPath : String) : Option BackupInfo :=
  (manager.files[withExtension backupPath "meta"]?).bind fun file =>
    (env.fromStr file.content).toOption

/-- What `list_backups` says of a file: its metadata, or what the file itself tells. -/
def backupInfo (manager : BackupManager) (entry : String × StoredFile) : BackupInfo :=
  (manager.loadBackupMetadata env entry.1).getD
    { backupId := fileStem (fileName entry.1)
      createdAt := entry.2.created
      walSequence := 0
      filePath := entry.1
      sizeBytes := entry.2.content.length
      includesWal := false
      compressed := false }

/-- `list_backups`: the newest first. -/
def listBackups (manager : BackupManager) : List BackupInfo :=
  let backups := (Files.readDir manager.files manager.config.backupDir).filter fun entry =>
    fileExtension (fileName entry.1) = some "veddb" ∨ fileExtension (fileName entry.1) = some "gz"
  (backups.map (manager.backupInfo env)).mergeSort fun a b => decide (b.createdAt ≤ a.createdAt)

/-- The loop of `cleanup_old_backups`. -/
def deleteBackups (files : Files) (backups : List BackupInfo) : Files :=
  backups.foldl
    (fun files backup =>
      (files.erase backup.filePath).erase (withExtension backup.filePath "meta"))
    files

/-- `cleanup_old_backups`: at most five backups stay. -/
def cleanupOldBackups (manager : BackupManager) : BackupManager :=
  let backups := (manager.listBackups env).filter fun backup =>
    !backup.filePath.toList.tails.any fun rest => ".tmp".toList.isPrefixOf rest
  let oldest := backups.mergeSort fun a b => decide (a.createdAt ≤ b.createdAt)
  { manager with files := deleteBackups manager.files (oldest.take (backups.length - 5)) }

/-- `create_backup`.  The copy of a snapshot that could not be finished, a `.tmp` file nothing
reads, is left out. -/
def createBackup (manager : BackupManager) (layer : PersistentLayer) (walSequence : Nat) :
    Outcome String BackupInfo × BackupManager :=
  let backupId := "backup_" ++ env.format now
  let filename := if manager.config.compress then backupId ++ ".veddb.gz" else backupId ++ ".veddb"
  let temp := joinPath manager.config.backupDir (filename ++ ".tmp")
  let final := joinPath manager.config.backupDir filename
  match createSnapshot env.snapshot now layer walSequence with
  | .crashed => (.crashed, manager)
  | .error error => (.error ("Failed to create snapshot: " ++ error.message), manager)
  | .ok content =>
    let info : BackupInfo :=
      { backupId := backupId
        createdAt := now
        walSequence := walSequence
        filePath := final
        sizeBytes := content.length
        includesWal := manager.config.includeWal
        compressed := manager.config.compress }
    let files := manager.files.insert temp ⟨content, now⟩
    match env.toStringPretty info with
    | .error error => (.error error, { manager with files := files })
    | .ok metadata =>
      let files := files.insert (withExtension temp "meta.tmp") ⟨metadata, now⟩
      let files := Files.rename files temp final
      let files :=
        Files.rename files (withExtension temp "meta.tmp") (withExtension final "meta")
      (.ok info, cleanupOldBackups env { manager with files := files })

/-- The `DeleteBackup` command: `fs::remove_file` of a path that the client may choose. -/
def deleteBackup (manager : BackupManager) (backupId : String) : Except String BackupManager :=
  let backupPath := joinPath manager.config.backupDir backupId
  if manager.files.contains backupPath then
    .ok
      { manager with
        files := (manager.files.erase backupPath).erase (withExtension backupPath "meta") }
  else .error "No such file or directory (os error 2)"

end BackupManager

/-- The messages of the errors of restoring and recovery.  The times of an ambiguity are printed by
the formatter of the clock. -/
def BackupError.message (debug : DateTime → String) (path : String) : BackupError → String
  | .notFound => "Backup file not found: " ++ path
  | .loadSnapshot cause => "Failed to load snapshot: " ++ cause.message
  | .readEntry cause => "Failed to read WAL entry: " ++ cause.message
  | .timestampAmbiguity sequence timestamp last =>
    "TIMESTAMP AMBIGUITY DETECTED during Point-In-Time Recovery:\nEntry " ++
      toString sequence ++ " has timestamp " ++ debug timestamp ++
      " which is EARLIER than previous entry timestamp " ++ debug last ++ ".\n" ++
      "This violates the monotonicity requirement and makes PITR unsafe.\n" ++
      "PITR cannot proceed. Please verify WAL consistency or use a different recovery method."
  | .nonMonotonicSequence sequence last =>
    "NON-MONOTONIC WAL SEQUENCE DETECTED during Point-In-Time Recovery:\nEntry sequence " ++
      toString sequence ++ " <= last applied sequence " ++ toString last ++ ".\n" ++
      "This should NEVER happen and indicates WAL corruption or incorrect WAL file ordering.\n" ++
      "PITR cannot proceed safely. Database integrity may be compromised."
  | .applyOperation sequence cause =>
    "Failed to apply WAL operation at sequence " ++ toString sequence ++ ": " ++ cause.message

end VedDb
